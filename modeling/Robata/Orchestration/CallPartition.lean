import Robata.Lib.GreedySplit
import Robata.Orchestration.AttemptModels

/-!
# Call parts

`_partition_items` cuts the rendered items into call parts in one pass, and the planner measures
the parts against the limits.  The pass tests an item alone only when it comes first, so that a
later item which is too large becomes a part of its own; and it tests the pixels of every item,
where the planner measures images only.

Of an item its artifact is kept, and of a part what its caller chooses.
-/

namespace Robata.Orchestration.Preparation

open Lib List

structure ProviderRenderingPolicy where
  (inputTokensPerItem fixedInputTokensPerPart : Nat)

structure CallPartSpec where
  (startItemOrdinal endItemOrdinalExclusive measuredInputTokens : Nat)

/-- A new part, as `validate_range` accepts it. -/
def callPart (start stop tokens : Nat) : Except String CallPartSpec :=
  if stop ≤ start then .error "call part range must be nonempty" else .ok ⟨start, stop, tokens⟩

theorem callPart_of_lt {start stop tokens : Nat} (h : start < stop) :
    callPart start stop tokens = .ok ⟨start, stop, tokens⟩ :=
  if_neg (Nat.not_le.mpr h)

def exceedsLimit (value : Nat) (limit : Option Nat) : Bool := limit.any (· < value)

/-- `_exceeds`. -/
def exceeds (images payload tokens : Nat) (limits : ApplicableProviderLimits) : Bool :=
  exceedsLimit images limits.maxImagesPerRequest ||
    exceedsLimit payload limits.maxPayloadBytesPerRequest ||
      exceedsLimit tokens limits.maxInputTokensPerRequest

def isImage (item : RenderedArtifact) : Bool := item.mediaType.startsWith "image/"

/-- An item has more pixels than the limit, whether it is an image or not. -/
def overPixels (limits : ApplicableProviderLimits) (item : RenderedArtifact) : Bool :=
  exceedsLimit (item.width * item.height) limits.maxPixelsPerImage

structure PartitionState where
  parts : List CallPartSpec
  (start images payload tokens : Nat)

def PartitionState.add (policy : ProviderRenderingPolicy) (s : PartitionState)
    (item : RenderedArtifact) : PartitionState :=
  { s with
    images := s.images + if isImage item then 1 else 0
    payload := s.payload + item.byteCount
    tokens := s.tokens + policy.inputTokensPerItem }

section Partition

variable (limits : ApplicableProviderLimits) (policy : ProviderRenderingPolicy)

/-- One turn of the loop of `_partition_items`. -/
def partitionStep (s : PartitionState) (ordinal : Nat) (item : RenderedArtifact) :
    Except String PartitionState :=
  if overPixels limits item then
    .error s!"item {ordinal} exceeds max_pixels_per_image before call partitioning"
  else
    let filled := s.add policy item
    if exceeds filled.images filled.payload filled.tokens limits then
      if ordinal = s.start then
        .error s!"item {ordinal} exceeds provider limits and cannot be split"
      else do
        let part ← callPart s.start ordinal s.tokens
        let next : PartitionState :=
          ⟨s.parts ++ [part], ordinal, 0, 0, policy.fixedInputTokensPerPart⟩
        return next.add policy item
    else
      .ok filled

/-- The loop from an ordinal on.  The last part ends with the items. -/
def partitionFrom (s : PartitionState) (ordinal : Nat) :
    List RenderedArtifact → Except String (List CallPartSpec)
  | [] => do
    let part ← callPart s.start ordinal s.tokens
    return s.parts ++ [part]
  | item :: items => do
    partitionFrom (← partitionStep limits policy s ordinal item) (ordinal + 1) items

def partitionItems (items : List RenderedArtifact) : Except String (List CallPartSpec) :=
  if items.isEmpty then .error "materialized packages contain no selected frames"
  else partitionFrom limits policy ⟨[], 0, 0, 0, policy.fixedInputTokensPerPart⟩ 0 items

end Partition

/-! ## Measurements -/

/-- `items[start_item_ordinal : end_item_ordinal_exclusive]`. -/
def CallPartSpec.items (part : CallPartSpec) (items : List RenderedArtifact) :
    List RenderedArtifact :=
  (items.take part.endItemOrdinalExclusive).drop part.startItemOrdinal

def imageCount (items : List RenderedArtifact) : Nat := (items.filter isImage).length

def maxPixels (items : List RenderedArtifact) : Nat :=
  ((items.filter isImage).map fun item => item.width * item.height).foldr max 0

def payloadBytes (items : List RenderedArtifact) : Nat := (items.map (·.byteCount)).sum

def measureProviderLimits (items : List RenderedArtifact) (parts : List CallPartSpec) :
    MeasuredProviderLimits where
  maxImagesPerRequest := (parts.map fun part => imageCount (part.items items)).foldr max 0
  maxPixelsPerImage := (parts.map fun part => maxPixels (part.items items)).foldr max 0
  maxPayloadBytesPerRequest := (parts.map fun part => payloadBytes (part.items items)).foldr max 0
  maxInputTokensPerRequest := (parts.map (·.measuredInputTokens)).foldr max 0

inductive LimitMetric
  | imagesPerRequest | pixelsPerImage | payloadBytesPerRequest | inputTokensPerRequest

structure ProviderLimitDecision where
  metric : LimitMetric
  measuredValue : Nat
  applicableLimit : Option Nat
  pass : Bool

def limitDecisions (measured : MeasuredProviderLimits) (limits : ApplicableProviderLimits) :
    List ProviderLimitDecision :=
  [(.imagesPerRequest, measured.maxImagesPerRequest, limits.maxImagesPerRequest),
    (.pixelsPerImage, measured.maxPixelsPerImage, limits.maxPixelsPerImage),
    (.payloadBytesPerRequest, measured.maxPayloadBytesPerRequest,
      limits.maxPayloadBytesPerRequest),
    (.inputTokensPerRequest, measured.maxInputTokensPerRequest,
      limits.maxInputTokensPerRequest)].map fun (metric, value, limit) =>
    ⟨metric, value, limit, limit.all (value ≤ ·)⟩

/-- `InferenceInputPlanner.build` raises an `InputPlanLimitError`. -/
def overLimit (limits : ApplicableProviderLimits) (items : List RenderedArtifact)
    (parts : List CallPartSpec) : Bool :=
  (limitDecisions (measureProviderLimits items parts) limits).any (!·.pass)

section Claims

variable (limits : ApplicableProviderLimits) (policy : ProviderRenderingPolicy)

/-- The tokens of a part with `count` items. -/
def partTokens (count : Nat) : Nat :=
  policy.fixedInputTokensPerPart + policy.inputTokensPerItem * count

/-- Items that are sent as one part are within the limits, as the planner measures them. -/
def Sendable (items : List RenderedArtifact) : Prop :=
  overLimit limits items [⟨0, items.length, partTokens policy items.length⟩] = false

/-- Consecutive nonempty segments that can be sent. -/
structure Cover (items : List RenderedArtifact) (segments : List (List RenderedArtifact)) :
    Prop where
  flatten : segments.flatten = items
  nonempty : ∀ segment ∈ segments, segment ≠ []
  sendable : ∀ segment ∈ segments, Sendable limits policy segment

/-- The ranges of consecutive segments from an ordinal on, with their token counts. -/
def partsOf (start : Nat) : List (List RenderedArtifact) → List CallPartSpec
  | [] => []
  | segment :: segments =>
    ⟨start, start + segment.length, partTokens policy segment.length⟩ ::
      partsOf (start + segment.length) segments

/-- The parts that are returned: a cover within the limits, each part as long as possible, and no
cover has fewer. -/
structure BestParts (items : List RenderedArtifact) (parts : List CallPartSpec)
    (segments : List (List RenderedArtifact)) : Prop where
  cover : Cover limits policy items segments
  ranges : parts = partsOf policy 0 segments
  within : overLimit limits items parts = false
  longest : segments.IsChain fun part next =>
    ∀ item ∈ next.head?, ¬ Sendable limits policy (part ++ [item])
  fewest : ∀ other, Cover limits policy items other → segments.length ≤ other.length

structure PartitionsSoundly (items : List RenderedArtifact) : Prop where
  raises : (∃ e, partitionItems limits policy items = .error e) ↔
    ∃ item ∈ items, ¬ Sendable limits policy [item]
  returns : ∀ parts, partitionItems limits policy items = .ok parts →
    ∃ segments, BestParts limits policy items parts segments

/-- Items exceed a limit of the pass, which leaves the pixels out. -/
def Fits (items : List RenderedArtifact) : Prop :=
  exceeds (imageCount items) (payloadBytes items) (partTokens policy items.length) limits = false

instance : DecidablePred (Fits limits policy) := fun _ => inferInstanceAs (Decidable (_ = _))

/-- No item after the first is too large alone unless the pass refuses the items anyway, and an item
that is no image has too many pixels only where another item is too large. -/
structure Separable (items : List RenderedArtifact) : Prop where
  later : (∃ item ∈ items, ¬ Fits limits policy [item]) →
    (∃ item ∈ items.head?, ¬ Fits limits policy [item]) ∨ ∃ item ∈ items, overPixels limits item
  unmeasured : (∃ item ∈ items, overPixels limits item) →
    ∃ item ∈ items, ¬ Fits limits policy [item] ∨ isImage item ∧ overPixels limits item

end Claims

section Run

variable {limits : ApplicableProviderLimits} {policy : ProviderRenderingPolicy}
  {items segment : List RenderedArtifact} {parts : List CallPartSpec} {start : Nat}

/-- The state of the pass while it fills a part. -/
def stateOf (policy : ProviderRenderingPolicy) (parts : List CallPartSpec) (start : Nat)
    (segment : List RenderedArtifact) : PartitionState :=
  ⟨parts, start, imageCount segment, payloadBytes segment, partTokens policy segment.length⟩

@[simp] theorem add_stateOf (item : RenderedArtifact) :
    (stateOf policy parts start segment).add policy item =
      stateOf policy parts start (segment ++ [item]) := by
  unfold stateOf PartitionState.add imageCount payloadBytes partTokens
  by_cases h : isImage item <;> simp [h, Nat.mul_succ, Nat.add_assoc]

/-- The pass refuses too many pixels, and an item that does not fit where a part starts. -/
theorem partitionStep_refuses {ordinal : Nat} {item : RenderedArtifact}
    (h : overPixels limits item ∨ ¬ Fits limits policy (segment ++ [item]) ∧ ordinal = start) :
    ∃ e, partitionStep limits policy (stateOf policy parts start segment) ordinal item =
      .error e := by
  unfold partitionStep
  by_cases hover : overPixels limits item
  · exact ⟨_, if_pos hover⟩
  · obtain ⟨hfits, hstart⟩ := h.resolve_left hover
    rw [if_neg hover, add_stateOf]
    exact ⟨_, (if_pos (Bool.not_eq_false _ ▸ hfits)).trans (if_pos hstart)⟩

theorem partitionStep_of_fits {ordinal : Nat} {item : RenderedArtifact}
    (hpixels : ¬ overPixels limits item) (hfits : Fits limits policy (segment ++ [item])) :
    partitionStep limits policy (stateOf policy parts start segment) ordinal item =
      .ok (stateOf policy parts start (segment ++ [item])) := by
  unfold partitionStep
  rw [if_neg hpixels, add_stateOf]
  exact if_neg (Bool.not_eq_true _ ▸ hfits)

/-- The pass goes on from an item as the greedy split does. -/
theorem partitionStep_next {item : RenderedArtifact} (hne : segment ≠ [])
    (hpixels : ¬ overPixels limits item) : ∃ parts' start' segment', segment' ≠ [] ∧
      partitionStep limits policy (stateOf policy parts start segment) (start + segment.length)
        item = .ok (stateOf policy parts' start' segment') ∧
      start' + segment'.length = start + segment.length + 1 ∧
      parts' ++ partsOf policy start' (greedySplit (Fits limits policy) segment' items) =
        parts ++ partsOf policy start
          (greedySplit (Fits limits policy) segment (item :: items)) := by
  by_cases hfits : Fits limits policy (segment ++ [item])
  · refine ⟨parts, start, segment ++ [item], append_ne_nil_of_right_ne_nil _ (cons_ne_nil _ _),
      partitionStep_of_fits hpixels hfits, ?_, by rw [greedySplit_of_fits hfits]⟩
    rw [length_append, length_singleton, Nat.add_assoc]
  · have hlt : start < start + segment.length :=
      Nat.lt_add_of_pos_right (length_pos_of_ne_nil hne)
    -- the item opens the next part untested, even when it does not fit there alone
    let part : CallPartSpec := ⟨start, start + segment.length, partTokens policy segment.length⟩
    have hadd := @add_stateOf policy [] (parts ++ [part]) (start + segment.length) item
    refine ⟨parts ++ [part], start + segment.length, [item], cons_ne_nil _ _, ?_, rfl, ?_⟩
    · unfold partitionStep
      rw [if_neg hpixels, add_stateOf]
      refine (if_pos (Bool.not_eq_false _ ▸ hfits)).trans ((if_neg hlt.ne').trans ?_)
      show (do let part ← callPart start (start + segment.length) _; _) = _
      rw [callPart_of_lt hlt]
      exact congrArg Except.ok hadd
    · rw [greedySplit_of_not_fits hfits, append_assoc]
      rfl

theorem partitionFrom_run (hne : segment ≠ []) :
    let run := partitionFrom limits policy (stateOf policy parts start segment)
      (start + segment.length) items
    ((∀ item ∈ items, ¬ overPixels limits item) → run =
      .ok (parts ++ partsOf policy start (greedySplit (Fits limits policy) segment items))) ∧
    ((∃ item ∈ items, overPixels limits item) → ∃ e, run = .error e) := by
  induction items generalizing parts start segment with
  | nil =>
    refine ⟨fun _ => ?_, fun ⟨_, hmem, _⟩ => absurd hmem not_mem_nil⟩
    show (do let part ← callPart start (start + segment.length) _; _) = _
    rw [callPart_of_lt (Nat.lt_add_of_pos_right (length_pos_of_ne_nil hne))]
    rfl
  | cons item items ih =>
    dsimp only
    rw [forall_mem_cons, exists_mem_cons_iff]
    unfold partitionFrom
    by_cases hitem : overPixels limits item
    · obtain ⟨e, hstep⟩ := @partitionStep_refuses limits policy segment parts start
        (start + segment.length) item (.inl hitem)
      rw [hstep]
      exact ⟨fun h => absurd hitem h.1, fun _ => ⟨e, rfl⟩⟩
    · obtain ⟨parts', start', segment', hne', hstep, hlength, hparts⟩ :=
        @partitionStep_next limits policy items segment parts start item hne hitem
      have hrest := @ih segment' parts' start' hne'
      rw [hlength, hparts] at hrest
      rw [hstep]
      exact ⟨fun h => hrest.1 h.2, fun h => hrest.2 (h.resolve_left hitem)⟩

/-- The pass refuses the first item or the pixels of any, and else returns the greedy parts. -/
theorem partitionItems_cons (first : RenderedArtifact) :
    (Fits limits policy [first] ∧ (∀ item ∈ first :: items, ¬ overPixels limits item) →
      partitionItems limits policy (first :: items) =
        .ok (partsOf policy 0 (greedySplit (Fits limits policy) [first] items))) ∧
    (¬ Fits limits policy [first] ∨ (∃ item ∈ first :: items, overPixels limits item) →
      ∃ e, partitionItems limits policy (first :: items) = .error e) := by
  have hrun : partitionItems limits policy (first :: items) =
      (partitionStep limits policy (stateOf policy [] 0 []) 0 first >>= fun s =>
        partitionFrom limits policy s 1 items) := rfl
  rw [hrun, forall_mem_cons, exists_mem_cons_iff]
  by_cases hfirst : overPixels limits first ∨ ¬ Fits limits policy [first]
  · obtain ⟨e, hstep⟩ := @partitionStep_refuses limits policy [] [] 0 0 first
      (hfirst.imp_right fun h => ⟨h, rfl⟩)
    rw [hstep]
    exact ⟨fun h => (hfirst.elim h.2.1 (absurd h.1)).elim, fun _ => ⟨e, rfl⟩⟩
  · obtain ⟨hover, hfits⟩ := not_or.mp hfirst
    have hrest := @partitionFrom_run limits policy items [first] [] 0 (cons_ne_nil _ _)
    rw [@partitionStep_of_fits limits policy [] [] 0 0 first hover (not_not.mp hfits)]
    exact ⟨fun h => hrest.1 h.2.2,
      fun h => hrest.2 ((h.resolve_left hfits).resolve_left hover)⟩

end Run

section Measured

variable {limits : ApplicableProviderLimits} {policy : ProviderRenderingPolicy}
  {items : List RenderedArtifact} {first : RenderedArtifact}

theorem exceedsLimit_mono {a b : Nat} {limit : Option Nat} (h : a ≤ b)
    (hb : exceedsLimit b limit = false) : exceedsLimit a limit = false := by
  cases limit with
  | none => rfl
  | some n => exact decide_eq_false fun hlt => of_decide_eq_false hb (hlt.trans_le h)

theorem fits_of_sublist {items' : List RenderedArtifact} (h : items <+ items')
    (hfits : Fits limits policy items') : Fits limits policy items := by
  unfold Fits exceeds at hfits ⊢
  simp only [Bool.or_eq_false_iff] at hfits ⊢
  obtain ⟨⟨himages, hpayload⟩, htokens⟩ := hfits
  exact ⟨⟨exceedsLimit_mono (h.filter _).length_le himages,
    exceedsLimit_mono ((h.map _).sum_le_sum fun _ _ => Nat.zero_le _) hpayload⟩,
    exceedsLimit_mono (Nat.add_le_add_left (Nat.mul_le_mul_left _ h.length_le) _) htokens⟩

theorem exceedsLimit_foldr {values : List Nat} {limit : Option Nat} :
    exceedsLimit (values.foldr max 0) limit = false ↔
      ∀ value ∈ values, exceedsLimit value limit = false := by
  cases limit with
  | none => exact iff_of_true rfl fun _ _ => rfl
  | some n => induction values <;> simp_all [exceedsLimit]

variable (limits) in
/-- A part passes the decisions of the planner. -/
def Passes (segment : List RenderedArtifact) (tokens : Nat) : Prop :=
  exceeds (imageCount segment) (payloadBytes segment) tokens limits = false ∧
    ∀ item ∈ segment, isImage item → ¬ overPixels limits item

theorem overLimit_eq_false {parts : List CallPartSpec} : overLimit limits items parts = false ↔
    ∀ part ∈ parts, Passes limits (part.items items) part.measuredInputTokens := by
  have hall : ∀ (value : Nat) (limit : Option Nat),
      (!limit.all (value ≤ ·)) = exceedsLimit value limit := fun value limit => by
    cases limit <;> simp [exceedsLimit, ← decide_not]
  simp only [overLimit, limitDecisions, measureProviderLimits, Passes, exceeds, maxPixels, map_cons,
    map_nil, any_cons, any_nil, hall, Bool.or_false, Bool.or_eq_false_iff, exceedsLimit_foldr,
    forall_mem_map]
  constructor
  · rintro ⟨himages, hpixels, hpayload, htokens⟩ part hpart
    exact ⟨⟨⟨himages part hpart, hpayload part hpart⟩, htokens part hpart⟩,
      fun item hitem himage => Bool.not_eq_true _ ▸
        hpixels part hpart item (mem_filter.mpr ⟨hitem, himage⟩)⟩
  · intro h
    refine ⟨fun part hpart => (h part hpart).1.1.1, fun part hpart item hitem => ?_,
      fun part hpart => (h part hpart).1.1.2, fun part hpart => (h part hpart).1.2⟩
    obtain ⟨hitem, himage⟩ := mem_filter.mp hitem
    exact Bool.not_eq_true _ ▸ (h part hpart).2 item hitem himage

theorem sendable_iff : Sendable limits policy items ↔
    Fits limits policy items ∧ ∀ item ∈ items, isImage item → ¬ overPixels limits item := by
  unfold Sendable
  rw [overLimit_eq_false, forall_mem_singleton]
  unfold CallPartSpec.items Passes
  rw [take_length]
  exact Iff.rfl

theorem passes_partsOf {segments : List (List RenderedArtifact)}
    (h : ∀ segment ∈ segments, Sendable limits policy segment) (before : List RenderedArtifact) :
    ∀ part ∈ partsOf policy before.length segments,
      Passes limits (part.items (before ++ segments.flatten)) part.measuredInputTokens := by
  induction segments generalizing before with
  | nil => exact fun _ hpart => absurd hpart not_mem_nil
  | cons segment segments ih =>
    obtain ⟨hsegment, hsegments⟩ := forall_mem_cons.mp h
    refine forall_mem_cons.mpr ⟨?_, ?_⟩
    · unfold CallPartSpec.items
      rw [flatten_cons, ← append_assoc, ← length_append, take_left, drop_left]
      exact sendable_iff.mp hsegment
    · have hrest := ih hsegments (before ++ segment)
      rw [length_append, append_assoc] at hrest
      exact hrest

theorem bestParts (h : ∀ item ∈ first :: items, Sendable limits policy [item]) :
    BestParts limits policy (first :: items)
      (partsOf policy 0 (greedySplit (Fits limits policy) [first] items))
      (greedySplit (Fits limits policy) [first] items) := by
  obtain ⟨hfirst, hitems⟩ := forall_mem_cons.mp h
  have hflat : (greedySplit (Fits limits policy) [first] items).flatten = first :: items :=
    flatten_greedySplit
  have hsend : ∀ segment ∈ greedySplit (Fits limits policy) [first] items,
      Sendable limits policy segment := fun segment hsegment =>
    sendable_iff.mpr ⟨greedySplit_forall (sendable_iff.mp hfirst).1
      (fun item hitem => (sendable_iff.mp (hitems item hitem)).1) (fun _ _ _ hfits => hfits)
      segment hsegment, fun item hitem => (sendable_iff.mp (h item
        (hflat ▸ mem_flatten_of_mem hsegment hitem))).2 item mem_cons_self⟩
  refine ⟨⟨hflat, ?_, hsend⟩, rfl, ?_, ?_, fun other hother => ?_⟩
  · exact greedySplit_forall (cons_ne_nil _ _) (fun _ _ => cons_ne_nil _ _)
      fun _ _ _ _ => append_ne_nil_of_right_ne_nil _ (cons_ne_nil _ _)
  · have hpasses := passes_partsOf hsend []
    rw [nil_append, hflat] at hpasses
    exact overLimit_eq_false.mpr hpasses
  · exact isChain_greedySplit.imp fun _ _ hlong item hitem hlonger =>
      hlong item hitem (sendable_iff.mp hlonger).1
  · have hfits : ∀ segment ∈ other, Fits limits policy segment := fun segment hsegment =>
      (sendable_iff.mp (hother.sendable segment hsegment)).1
    -- what fits still fits with items taken away, so that no cover is shorter than the greedy one
    exact length_greedySplit_le (fun hinit => fits_of_sublist hinit.sublist)
      (fun htail => fits_of_sublist htail.sublist) other [] (cons_ne_nil _ _) hfits hother.flatten

theorem not_sendable_iff {item : RenderedArtifact} : ¬ Sendable limits policy [item] ↔
    ¬ Fits limits policy [item] ∨ isImage item ∧ overPixels limits item := by
  rw [sendable_iff, forall_mem_singleton, not_and_or, Classical.not_imp, not_not]

theorem raises_iff : (∃ e, partitionItems limits policy (first :: items) = .error e) ↔
    ¬ Fits limits policy [first] ∨ ∃ item ∈ first :: items, overPixels limits item := by
  obtain ⟨hok, herror⟩ := @partitionItems_cons limits policy items first
  refine ⟨fun ⟨e, he⟩ => ?_, herror⟩
  by_contra hno
  obtain ⟨hfits, hover⟩ := not_or.mp hno
  cases he.symm.trans (hok ⟨not_not.mp hfits, fun item hitem hpixels =>
    hover ⟨item, hitem, hpixels⟩⟩)

theorem separable_iff : Separable limits policy (first :: items) ↔
    ((¬ Fits limits policy [first] ∨ ∃ item ∈ first :: items, overPixels limits item) ↔
      ∃ item ∈ first :: items, ¬ Sendable limits policy [item]) := by
  simp only [not_sendable_iff]
  constructor
  · rintro ⟨hlater, hunmeasured⟩
    constructor
    · rintro (hfits | hover)
      · exact ⟨first, mem_cons_self, .inl hfits⟩
      · exact hunmeasured hover
    · rintro ⟨item, hitem, hfits | ⟨-, hover⟩⟩
      · rcases hlater ⟨item, hitem, hfits⟩ with ⟨_, ⟨⟩, hfirst⟩ | hover
        · exact .inl hfirst
        · exact .inr hover
      · exact .inr ⟨item, hitem, hover⟩
  · intro h
    exact ⟨fun ⟨item, hitem, hfits⟩ => (h.mpr ⟨item, hitem, .inl hfits⟩).imp_left fun hfirst =>
      ⟨first, rfl, hfirst⟩, fun hover => h.mp (.inr hover)⟩

end Measured

/-- The partition is sound, complete and minimal exactly for the items of which the pass refuses
what the planner would. -/
theorem partitions_soundly_iff (limits : ApplicableProviderLimits)
    (policy : ProviderRenderingPolicy) (first : RenderedArtifact) (items : List RenderedArtifact) :
    PartitionsSoundly limits policy (first :: items) ↔
      Separable limits policy (first :: items) := by
  refine ⟨fun h => separable_iff.mpr (raises_iff.symm.trans h.raises), fun h => ?_⟩
  have hraises := raises_iff.trans (separable_iff.mp h)
  refine ⟨hraises, fun parts hparts => ?_⟩
  have hnone : ¬ ∃ e, partitionItems limits policy (first :: items) = .error e := by
    rintro ⟨e, he⟩
    cases hparts.symm.trans he
  obtain ⟨hfits, hover⟩ := not_or.mp (mt raises_iff.mpr hnone)
  have hreturns := (partitionItems_cons first).1 ⟨not_not.mp hfits, fun item hitem hpixels =>
    hover ⟨item, hitem, hpixels⟩⟩
  cases hparts.symm.trans hreturns
  exact ⟨_, bestParts fun item hitem => by
    by_contra hnot
    exact hnone (hraises.mpr ⟨item, hitem, hnot⟩)⟩

/-- At most three bytes a request. -/
def threeBytes : ApplicableProviderLimits := ⟨none, none, some 3, none⟩

def sampleItem (byteCount : Nat) : RenderedArtifact := ⟨byteCount, "image/png", "png", 1, 1⟩

example : partitionItems threeBytes ⟨1, 0⟩ [sampleItem 2, sampleItem 1, sampleItem 3] =
    .ok [⟨0, 2, 2⟩, ⟨2, 3, 1⟩] := rfl

/-- A second item that is too large alone is returned as a part of its own. -/
theorem oversize_second_item_passes : ¬ ∀ (limits : ApplicableProviderLimits)
    (policy : ProviderRenderingPolicy) (items : List RenderedArtifact), items ≠ [] →
      PartitionsSoundly limits policy items := by
  intro h
  have hsound := h threeBytes ⟨1, 0⟩ [sampleItem 1, sampleItem 5] (cons_ne_nil _ _)
  obtain ⟨e, he⟩ := hsound.raises.mpr ⟨sampleItem 5, mem_cons_of_mem _ mem_cons_self, by
    unfold Sendable
    decide⟩
  have hok : partitionItems threeBytes ⟨1, 0⟩ [sampleItem 1, sampleItem 5] =
      .ok [⟨0, 1, 1⟩, ⟨1, 2, 1⟩] := rfl
  cases he.symm.trans hok

end Robata.Orchestration.Preparation
