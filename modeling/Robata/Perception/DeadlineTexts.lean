import Robata.Perception.FinalizationBarrier

/-!
# Deadlines as texts

The scheduler stores the expiry of a lease and the time of a retry as texts.  Its statements
compare the texts; `_live_lease` parses them and compares instants.  `_timestamp` leaves the
fraction out at a full second, and `Z` comes after `.`, so that the two orders differ within a
second that one of the times begins.
-/

namespace Robata.Perception

open Lib List
open KeyedTable (mem_rows_iff rowcount_eq_one_iff)
open PerceptionDb (claim expired leaseItem liveLease recoverItem updateItems)

/-! ## The texts -/

/-- `f"{n:0{width}d}"`. -/
def padded : Nat → Nat → List Char
  | 0, _ => []
  | width + 1, n => padded width (n / 10) ++ [Nat.digitChar (n % 10)]

/-- The fraction of `isoformat()`, with the `Z` that `_timestamp` puts in place of `+00:00`. -/
def fractionText (microsecond : Nat) : List Char :=
  (if microsecond = 0 then [] else '.' :: padded 6 microsecond) ++ ['Z']

/-- `_timestamp`, over the text of the whole seconds. -/
def timestampText (isoSeconds : Int → List Char) (t : Instant) : List Char :=
  isoSeconds (t / 1000000) ++ fractionText (t % 1000000).toNat

theorem length_padded (width n : Nat) : (padded width n).length = width := by
  induction width generalizing n with
  | zero => rfl
  | succ width ih => simp [padded, ih]

/-- Texts that begin with equally long parts are compared part by part. -/
theorem append_lt_append_iff {a b c d : List Char} (h : a.length = b.length) :
    a ++ c < b ++ d ↔ a < b ∨ a = b ∧ c < d := by
  induction a generalizing b with
  | nil =>
    rw [eq_nil_of_length_eq_zero h.symm]
    simp
  | cons x a ih =>
    cases b with
    | nil => cases h
    | cons y b =>
      rw [cons_append, cons_append, cons_lt_cons_iff, cons_lt_cons_iff,
        ih (Nat.succ.inj h), List.cons.injEq]
      constructor
      · rintro (hlt | ⟨hxy, hlt | ⟨hab, hcd⟩⟩)
        · exact .inl (.inl hlt)
        · exact .inl (.inr ⟨hxy, hlt⟩)
        · exact .inr ⟨⟨hxy, hab⟩, hcd⟩
      · rintro ((hlt | ⟨hxy, hlt⟩) | ⟨⟨hxy, hab⟩, hcd⟩)
        · exact .inl hlt
        · exact .inr ⟨hxy, .inl hlt⟩
        · exact .inr ⟨hxy, .inr ⟨hab, hcd⟩⟩

theorem digitChar_lt_iff : ∀ m < 10, ∀ n < 10, Nat.digitChar m < Nat.digitChar n ↔ m < n := by
  decide

theorem digitChar_inj : ∀ m < 10, ∀ n < 10, Nat.digitChar m = Nat.digitChar n → m = n := by
  decide

theorem padded_inj {width m n : Nat} (hm : m < 10 ^ width) (hn : n < 10 ^ width)
    (h : padded width m = padded width n) : m = n := by
  induction width generalizing m n with
  | zero => omega
  | succ width ih =>
    obtain ⟨hinit, hlast⟩ := append_inj' h rfl
    have hdigit := digitChar_inj _ (Nat.mod_lt m (by decide)) _ (Nat.mod_lt n (by decide))
      (singleton_inj.mp hlast)
    have hdiv := ih (by omega) (by omega) hinit
    omega

theorem padded_lt_iff {width m n : Nat} (hm : m < 10 ^ width) (hn : n < 10 ^ width) :
    padded width m < padded width n ↔ m < n := by
  induction width generalizing m n with
  | zero =>
    simp only [padded, List.lt_irrefl, false_iff]
    omega
  | succ width ih =>
    have hm' : m / 10 < 10 ^ width := by omega
    have hn' : n / 10 < 10 ^ width := by omega
    have hdigit := digitChar_lt_iff _ (Nat.mod_lt m (by decide)) _ (Nat.mod_lt n (by decide))
    unfold padded
    rw [append_lt_append_iff (by rw [length_padded, length_padded]), ih hm' hn']
    constructor
    · rintro (hlt | ⟨heq, hlt⟩)
      · omega
      · have hdiv := padded_inj hm' hn' heq
        have hmod := hdigit.mp (by simpa [cons_lt_cons_iff] using hlt)
        omega
    · intro hlt
      by_cases hdiv : m / 10 = n / 10
      · refine .inr ⟨by rw [hdiv], ?_⟩
        have hmod := hdigit.mpr (by omega)
        simpa [cons_lt_cons_iff] using hmod
      · exact .inl (by omega)

/-- At a full second the text comes after those of all fractions. -/
theorem fractionText_lt_iff {m n : Nat} (hm : m < 1000000) (hn : n < 1000000) :
    fractionText m < fractionText n ↔
      (if m = 0 then 1000000 else m) < if n = 0 then 1000000 else n := by
  have hpoint : ¬ 'Z' < '.' ∧ 'Z' ≠ '.' := by decide
  have hpoint' : '.' < 'Z' := by decide
  unfold fractionText
  by_cases hm0 : m = 0 <;> by_cases hn0 : n = 0
  · simp [hm0, hn0]
  · simp only [hm0, hn0, if_true, if_false, nil_append, cons_append,
      cons_lt_cons_iff, hpoint.1, hpoint.2, false_and, or_self, false_iff]
    omega
  · simp only [hm0, hn0, if_true, if_false, nil_append, cons_append,
      cons_lt_cons_iff, hpoint', true_or, true_iff]
    omega
  · simp only [hm0, hn0, if_false, cons_append, cons_lt_cons_iff]
    rw [append_lt_append_iff (by rw [length_padded, length_padded]), padded_lt_iff hm hn]
    simp

theorem timestampLe_eq_true (a b : Int) : timestampLe a b = true ↔
    a / 1000000 < b / 1000000 ∨ a / 1000000 = b / 1000000 ∧ fractionKey a ≤ fractionKey b := by
  simp only [timestampLe, Bool.or_eq_true, decide_eq_true_eq, Bool.and_eq_true, beq_iff_eq]

theorem fractionKey_eq (t : Int) :
    fractionKey t = if t % 1000000 = 0 then 1000000 else t % 1000000 := rfl

/-- The statements compare texts: `timestampLe` is their order, as long as the texts of the whole
seconds are equally long and in order. -/
theorem timestampLe_iff_text {isoSeconds : Int → List Char} {a b : Int}
    (hwidth : (isoSeconds (b / 1000000)).length = (isoSeconds (a / 1000000)).length)
    (hlt : a / 1000000 < b / 1000000 → isoSeconds (a / 1000000) < isoSeconds (b / 1000000))
    (hgt : b / 1000000 < a / 1000000 → isoSeconds (b / 1000000) < isoSeconds (a / 1000000)) :
    timestampLe a b = true ↔ timestampText isoSeconds a ≤ timestampText isoSeconds b := by
  have hkey : ∀ t : Int, ((if (t % 1000000).toNat = 0 then 1000000 else (t % 1000000).toNat : Nat)
      : Int) = fractionKey t := by
    intro t
    rw [fractionKey_eq]
    split <;> split <;> omega
  have hfraction := fractionText_lt_iff (m := (b % 1000000).toNat) (n := (a % 1000000).toNat)
    (by omega) (by omega)
  rw [← Int.ofNat_lt, hkey, hkey] at hfraction
  have htext : timestampText isoSeconds b < timestampText isoSeconds a ↔
      isoSeconds (b / 1000000) < isoSeconds (a / 1000000) ∨
        isoSeconds (b / 1000000) = isoSeconds (a / 1000000) ∧ fractionKey b < fractionKey a := by
    rw [← hfraction]
    exact append_lt_append_iff hwidth
  rw [← not_lt, htext, timestampLe_eq_true]
  rcases lt_trichotomy (a / 1000000) (b / 1000000) with h | h | h
  · have hne := (hlt h).ne'
    have hnot := (hlt h).not_gt
    simp [h, hne, hnot]
  · simp [h]
  · have hnot := h.not_gt
    simp [hgt h, hnot, h.ne']

/-- `isoformat()` of a number of whole seconds since 1970, up to the offset. -/
def isoSeconds (seconds : Int) : List Char :=
  -- years are counted from a March, so that a leap day comes last
  let days := seconds / 86400 + 719468
  let dayOfEra := days % 146097
  let yearOfEra := (dayOfEra - dayOfEra / 1460 + dayOfEra / 36524 - dayOfEra / 146096) / 365
  let dayOfYear := dayOfEra - (365 * yearOfEra + yearOfEra / 4 - yearOfEra / 100)
  let fromMarch := (5 * dayOfYear + 2) / 153
  let day := dayOfYear - (153 * fromMarch + 2) / 5 + 1
  let month := if fromMarch < 10 then fromMarch + 3 else fromMarch - 9
  let year := days / 146097 * 400 + yearOfEra + if month ≤ 2 then 1 else 0
  padded 4 year.toNat ++ '-' :: padded 2 month.toNat ++ '-' :: padded 2 day.toNat ++
    'T' :: padded 2 (seconds / 3600 % 24).toNat ++ ':' :: padded 2 (seconds / 60 % 60).toNat ++
    ':' :: padded 2 (seconds % 60).toNat

example : timestampText isoSeconds 951868799000001 = "2000-02-29T23:59:59.000001Z".toList := by
  decide +kernel

/-- The first microsecond of a leap day sorts before its first second, and both before the next. -/
theorem timestampLe_iff_text_sample :
    timestampText isoSeconds 951782400000001 ≤ timestampText isoSeconds 951782400000000 ∧
      timestampText isoSeconds 951782400000000 ≤ timestampText isoSeconds 951782401000001 :=
  ⟨(timestampLe_iff_text (by decide +kernel) (by decide) (by decide)).mp (by decide),
    (timestampLe_iff_text (by decide +kernel) (by decide +kernel) (by decide)).mp (by decide)⟩

/-- Two times are spelled alike: in one second, both with a fraction or both without. -/
def SpelledAlike (a b : Int) : Prop :=
  a / 1000000 = b / 1000000 → (a % 1000000 = 0 ↔ b % 1000000 = 0)

/-- The order of the texts is that of the instants for times that are spelled alike, and the
opposite one for the others. -/
theorem timestampLe_iff (a b : Int) : (timestampLe a b = true ↔ a ≤ b) ↔ SpelledAlike a b := by
  rw [timestampLe_eq_true, fractionKey_eq, fractionKey_eq, SpelledAlike]
  constructor
  · intro h hsecond
    split at h <;> split at h <;> omega
  · split <;> split <;> omega

/-! ## What maintenance does to an item -/

section Maintenance

variable {db : PerceptionDb} {current : Instant}

/-- `_recover_expired` selects the row, and finds its fence again. -/
def DurablePerceptionWorkItem.isRecovered (current : Instant) (i : DurablePerceptionWorkItem) :
    Bool :=
  i.state.isActive && (i.leaseExpiresAt.any fun expiry => timestampLe expiry current) &&
    i.fencingToken.isSome

/-- What `_recover_expired` makes of an item. -/
def DurablePerceptionWorkItem.recovered (current : Instant) (i : DurablePerceptionWorkItem) :
    DurablePerceptionWorkItem :=
  if i.isRecovered current then
    expired (if i.attempt < i.maxAttempts then .ready else .failedPermanent) current i
  else i

/-- What `_promote_retry_wait` makes of an item. -/
def DurablePerceptionWorkItem.promoted (current : Instant) (i : DurablePerceptionWorkItem) :
    DurablePerceptionWorkItem :=
  if i.state == .retryWait && i.retryNotBeforeAt.any fun due => timestampLe due current then
    { i with state := .ready, retryNotBeforeAt := none, updatedAt := current }
  else i

theorem find?_recoverItem {changed : Nat × PerceptionDb} {i : DurablePerceptionWorkItem}
    (hi : changed.2.items.find? i.workItemId = some i) (hactive : i.state.isActive = true)
    (hexpired : (i.leaseExpiresAt.any fun expiry => timestampLe expiry current) = true)
    (id : String) :
    (recoverItem current changed i).2.items.find? id =
      if id = i.workItemId then some (i.recovered current) else changed.2.items.find? id := by
  have hrecovered : i.isRecovered current = i.fencingToken.isSome := by
    simp [DurablePerceptionWorkItem.isRecovered, hactive, hexpired]
  unfold recoverItem DurablePerceptionWorkItem.recovered
  rw [hrecovered]
  have hkey : ∀ r : DurablePerceptionWorkItem, (r.workItemId == i.workItemId &&
      r.leaseEpoch == i.leaseEpoch && r.fencingToken.isSome && r.fencingToken == i.fencingToken &&
      r.state.isActive) = true → r.workItemId = i.workItemId := by
    intro r hr
    simp only [Bool.and_eq_true, beq_iff_eq] at hr
    exact hr.1.1.1.1
  by_cases htoken : i.fencingToken.isSome = true
  · have hsel : (i.workItemId == i.workItemId && i.leaseEpoch == i.leaseEpoch &&
        i.fencingToken.isSome && i.fencingToken == i.fencingToken && i.state.isActive) = true := by
      simp [htoken, hactive]
    rw [if_pos ((rowcount_eq_one_iff _ hkey).mpr ⟨i, hi, hsel⟩), if_pos htoken]
    exact KeyedTable.find?_updateWhere_of_key _
      (expired (if i.attempt < i.maxAttempts then .ready else .failedPermanent) current)
      (fun _ => rfl) hkey hi hsel id
  · rw [if_neg]
    · split
      · rename_i hid
        rw [hid, hi]
      · rfl
    · rw [rowcount_eq_one_iff _ hkey]
      rintro ⟨r, hr, hsel⟩
      cases hi.symm.trans hr
      simp only [Bool.and_eq_true] at hsel
      exact htoken hsel.1.1.2

theorem find?_recoverLoop {rows : List DurablePerceptionWorkItem} :
    ∀ {changed : Nat × PerceptionDb}, (rows.map (·.workItemId)).Nodup →
      (∀ i ∈ rows, changed.2.items.find? i.workItemId = some i ∧ i.state.isActive = true ∧
        (i.leaseExpiresAt.any fun expiry => timestampLe expiry current) = true) → ∀ id,
      (rows.foldl (recoverItem current) changed).2.items.find? id =
        if id ∈ rows.map fun i => i.workItemId then
          (changed.2.items.find? id).map (DurablePerceptionWorkItem.recovered current)
        else changed.2.items.find? id := by
  induction rows with
  | nil => exact fun _ _ _ => rfl
  | cons i rest ih =>
    intro changed hnodup hrows id
    rw [map_cons, nodup_cons] at hnodup
    rw [forall_mem_cons] at hrows
    obtain ⟨⟨hi, hactive, hexpired⟩, hrest⟩ := hrows
    have hstep := find?_recoverItem hi hactive hexpired
    rw [foldl_cons, ih hnodup.2, hstep]
    · by_cases hid : id = i.workItemId
      · subst hid
        simp [hnodup.1, hi]
      · simp [hid]
    · intro r hr
      have hne : r.workItemId ≠ i.workItemId := fun h =>
        hnodup.1 (h ▸ mem_map_of_mem hr)
      rw [hstep, if_neg hne]
      exact hrest r hr

theorem find?_recoverExpired (id : String) : (db.recoverExpired current).2.items.find? id =
    (db.items.find? id).map (DurablePerceptionWorkItem.recovered current) := by
  unfold PerceptionDb.recoverExpired
  rw [find?_recoverLoop]
  · split
    · rfl
    · rename_i hid
      cases hi : db.items.find? id with
      | none => rfl
      | some i =>
        obtain ⟨hmem, hkey⟩ := KeyedTable.find?_eq_some_iff.mp hi
        have hnot : i.isRecovered current = false := by
          rw [← Bool.not_eq_true]
          intro hsel
          refine hid (mem_map.mpr ⟨i, mem_filter.mpr ⟨hmem, ?_⟩, hkey⟩)
          exact (Bool.and_eq_true_iff.mp hsel).1
        simp [DurablePerceptionWorkItem.recovered, hnot]
  · exact db.items.nodup.sublist (List.filter_sublist.map _)
  · intro i hi
    obtain ⟨hmem, hsel⟩ := mem_filter.mp hi
    exact ⟨mem_rows_iff.mp hmem, Bool.and_eq_true_iff.mp hsel⟩

/-- The tables after the maintenance that `reconcile` and `claim` begin with. -/
def PerceptionDb.maintained (db : PerceptionDb) (runKey : Option String) (current : Instant) :
    PerceptionDb :=
  ((db.recoverExpired current).2.promoteRetryWait current).2.refreshReady runKey current |>.2

/-- An item that is not planned is recovered and promoted, and nothing else. -/
theorem find?_maintained {runKey : Option String} {i : DurablePerceptionWorkItem}
    (hi : db.items.find? i.workItemId = some i) (hstate : i.state ≠ .planned) :
    (db.maintained runKey current).items.find? i.workItemId =
      some ((i.recovered current).promoted current) := by
  have hmid : ((db.recoverExpired current).2.promoteRetryWait current).2.items.find?
      i.workItemId = some ((i.recovered current).promoted current) := by
    unfold PerceptionDb.promoteRetryWait updateItems
    rw [KeyedTable.find?_updateWhere, find?_recoverExpired, hi]
    rfl
  have hrecovered : (i.recovered current).state ≠ .planned := by
    unfold DurablePerceptionWorkItem.recovered
    split
    · split <;> exact fun h => (by cases h)
    · exact hstate
  unfold PerceptionDb.maintained
  rw [find?_refreshReady, hmid, Option.map_some, if_neg]
  intro hreleased
  have hplanned := isReleased_planned hreleased
  unfold DurablePerceptionWorkItem.promoted at hplanned
  split at hplanned
  · cases hplanned
  · exact hrecovered hplanned

end Maintenance

/-! ## What holds after maintenance -/

/-- The tables after maintenance, and after the lease of one item that was ready then. -/
def Maintained (db : PerceptionDb) (now : Instant) (after : PerceptionDb) : Prop :=
  ∀ i, db.items.find? i.workItemId = some i → i.state ≠ .planned →
    ∃ k, after.items.find? i.workItemId = some k ∧
      (k = (i.recovered now).promoted now ∨
        ((i.recovered now).promoted now).state = .ready ∧ k.state = .leased ∧
          k.leaseEpoch = ((i.recovered now).promoted now).leaseEpoch + 1)

/-- The lease of an item still owns the fence. -/
def PerceptionDb.KeepsFence (after : PerceptionDb) (i : DurablePerceptionWorkItem) : Prop :=
  ∃ k, after.items.find? i.workItemId = some k ∧ k.leaseEpoch = i.leaseEpoch ∧
    k.fencingToken = i.fencingToken

/-- An item still waits for its retry. -/
def PerceptionDb.Waits (after : PerceptionDb) (i : DurablePerceptionWorkItem) : Prop :=
  ∃ k, after.items.find? i.workItemId = some k ∧ k.state = .retryWait

section After

variable {db after : PerceptionDb} {now : Instant} {i : DurablePerceptionWorkItem}

theorem maintained_reconcile (db : PerceptionDb) (now : Instant) :
    Maintained db now (db.reconcile now).2 :=
  fun _ hi hstate => ⟨_, find?_maintained hi hstate, .inl rfl⟩

theorem maintained_claim {workerId token : String} {seconds : Nat}
    {runKey workItemId : Option String}
    {out : Option (DurablePerceptionWorkItem × DurablePerceptionWorkLease) × PerceptionDb}
    (h : db.claim workerId seconds runKey workItemId token now = .ok out) :
    Maintained db now out.2 := by
  simp only [claim, bind_eq_ok] at h
  obtain ⟨_, _, _, _, _, _, _, _, h⟩ := h
  intro i hi hstate
  have hmaintained : (db.maintained runKey now).items.find? i.workItemId =
      some ((i.recovered now).promoted now) := find?_maintained hi hstate
  split at h
  · cases h
    exact ⟨_, hmaintained, .inl rfl⟩
  · rename_i item hitem
    obtain ⟨hstored, hready⟩ := nextClaim_spec hitem
    obtain ⟨leased, hlease, h⟩ := bind_eq_ok.mp h
    cases h
    simp only [leaseItem, bind_eq_ok] at hlease
    obtain ⟨expires, _, mid, hmid, last, hlast, _, _, hlease⟩ := hlease
    cases hlease
    obtain ⟨-, r, hr, -, hitems⟩ := updateItem_spec item.workItemId (fun r hr => by
      simp only [Bool.and_eq_true, beq_iff_eq] at hr
      exact hr.1.1) hmid
    have hfind := hitems i.workItemId
    rw [← (insertAttempt_spec hlast).1] at hfind
    by_cases hid : i.workItemId = item.workItemId
    · rw [if_pos hid] at hfind
      rw [← hid] at hstored
      cases hmaintained.symm.trans hstored
      exact ⟨_, hfind, .inr ⟨hready, rfl, rfl⟩⟩
    · rw [if_neg hid] at hfind
      exact ⟨_, hfind.trans hmaintained, .inl rfl⟩

/-- An active item loses its fence when the text of its expiry is not after that of `now`. -/
theorem Maintained.keepsFence_iff (h : Maintained db now after)
    (hi : db.items.find? i.workItemId = some i) (hactive : i.state.isActive = true)
    (htoken : i.fencingToken.isSome = true) {expiry : Instant}
    (hexpiry : i.leaseExpiresAt = some expiry) :
    after.KeepsFence i ↔ timestampLe expiry now = false := by
  have hnot : ∀ {state : DurablePerceptionWorkState}, state.isActive = false →
      i.state ≠ state := by
    rintro _ hidle rfl
    cases hidle.symm.trans hactive
  have hwait : (i.state == .retryWait) = false := beq_eq_false_iff_ne.mpr (hnot rfl)
  obtain ⟨k, hk, hcases⟩ := h i hi (hnot rfl)
  have hkeeps : after.KeepsFence i ↔ k.leaseEpoch = i.leaseEpoch ∧ k.fencingToken = i.fencingToken := by
    simp [PerceptionDb.KeepsFence, hk]
  rw [hkeeps]
  cases hle : timestampLe expiry now with
  | false =>
    have hsame : (i.recovered now).promoted now = i := by
      simp [DurablePerceptionWorkItem.recovered, DurablePerceptionWorkItem.isRecovered, hexpiry,
        hle, DurablePerceptionWorkItem.promoted, hwait]
    rw [hsame] at hcases
    rcases hcases with rfl | ⟨hstate, _⟩
    · simp
    · exact absurd hstate (hnot rfl)
  | true =>
    have hgone : ((i.recovered now).promoted now).leaseEpoch = i.leaseEpoch ∧
        ((i.recovered now).promoted now).fencingToken = none := by
      have hrecovered : i.isRecovered now = true := by
        simp [DurablePerceptionWorkItem.isRecovered, hactive, htoken, hexpiry, hle]
      unfold DurablePerceptionWorkItem.promoted DurablePerceptionWorkItem.recovered
      rw [if_pos hrecovered]
      split <;> exact ⟨rfl, rfl⟩
    simp only [Bool.true_eq_false, iff_false, not_and]
    rcases hcases with rfl | ⟨_, _, hepoch⟩
    · intro _ hsame
      rw [← hsame, hgone.2] at htoken
      cases htoken
    · omega

/-- An item leaves `RETRY_WAIT` when the text of its retry is not after that of `now`. -/
theorem Maintained.waits_iff (h : Maintained db now after)
    (hi : db.items.find? i.workItemId = some i) (hwait : i.state = .retryWait) {due : Instant}
    (hdue : i.retryNotBeforeAt = some due) : after.Waits i ↔ timestampLe due now = false := by
  obtain ⟨k, hk, hcases⟩ := h i hi (by rw [hwait]; exact fun h => (by cases h))
  have hwaits : after.Waits i ↔ k.state = .retryWait := by simp [PerceptionDb.Waits, hk]
  have hrecovered : i.recovered now = i := by
    simp [DurablePerceptionWorkItem.recovered, DurablePerceptionWorkItem.isRecovered, hwait,
      DurablePerceptionWorkState.isActive]
  rw [hwaits]
  rw [hrecovered] at hcases
  cases hle : timestampLe due now with
  | false =>
    have hsame : i.promoted now = i := by
      simp [DurablePerceptionWorkItem.promoted, hdue, hle]
    rw [hsame] at hcases
    rcases hcases with rfl | ⟨hstate, _⟩
    · simp [hwait]
    · rw [hwait] at hstate
      cases hstate
  | true =>
    have hready : (i.promoted now).state = .ready := by
      simp [DurablePerceptionWorkItem.promoted, hwait, hdue, hle]
    rcases hcases with rfl | ⟨_, hleased, _⟩
    · simp [hready]
    · simp [hleased]

end After

/-! ## Instants -/

/-- `after` has recovered the leases that have expired at `now`, and promoted the retries that are
due: in particular no lease that `_live_lease` accepts at `now` is taken away, and none that it
rejects as expired is kept. -/
structure ComparesInstants (db : PerceptionDb) (now : Instant) (after : PerceptionDb) : Prop where
  expiry : ∀ i ∈ db.items.rows, i.state.isActive = true → ∀ expiry,
    i.leaseExpiresAt = some expiry → (¬ after.KeepsFence i ↔ expiry ≤ now)
  retry : ∀ i ∈ db.items.rows, i.state = .retryWait → ∀ due,
    i.retryNotBeforeAt = some due → (¬ after.Waits i ↔ due ≤ now)
  live : ∀ lease i, db.liveLease lease now = .ok i → i.state.isActive = true → after.KeepsFence i
  rejected : ∀ lease i expiry, db.loadItem lease.workItemId = .ok i → i.state.isActive = true →
    i.leaseExpiresAt = some expiry →
    db.liveLease lease now = .error (.fence "lease has expired") → ¬ after.KeepsFence i

/-- The times that a maintenance at `now` compares are spelled like it. -/
def PerceptionDb.DeadlinesAlike (db : PerceptionDb) (now : Instant) : Prop :=
  ∀ i ∈ db.items.rows, ∀ deadline,
    i.state.isActive = true ∧ i.leaseExpiresAt = some deadline ∨
      i.state = .retryWait ∧ i.retryNotBeforeAt = some deadline → SpelledAlike deadline now

section Instants

variable {db after : PerceptionDb} {now : Instant}

theorem not_iff_le_iff {held : Prop} {deadline : Int}
    (h : held ↔ timestampLe deadline now = false) :
    (¬ held ↔ deadline ≤ now) ↔ SpelledAlike deadline now := by
  rw [← timestampLe_iff, h, Bool.not_eq_false]

theorem token_of_active (hlife : LifeInv db) {i : DurablePerceptionWorkItem}
    (hi : db.items.find? i.workItemId = some i) (hactive : i.state.isActive = true) :
    i.fencingToken.isSome = true := by
  obtain ⟨a, _, _, _, htoken⟩ := (hlife.items hi).exists_active hactive
  rw [htoken]
  rfl

theorem comparesInstants_iff (hlife : LifeInv db) (h : Maintained db now after) :
    ComparesInstants db now after ↔ db.DeadlinesAlike now := by
  have hfence : ∀ {i expiry}, db.items.find? i.workItemId = some i → i.state.isActive = true →
      i.leaseExpiresAt = some expiry →
      ((¬ after.KeepsFence i ↔ expiry ≤ now) ↔ SpelledAlike expiry now) :=
    fun hi hactive hexpiry => not_iff_le_iff
      (h.keepsFence_iff hi hactive (token_of_active hlife hi hactive) hexpiry)
  constructor
  · rintro ⟨hexpiry, hretry, _, _⟩ i hmem deadline (⟨hactive, hsome⟩ | ⟨hwait, hsome⟩)
    · exact (hfence (mem_rows_iff.mp hmem) hactive hsome).mp
        (hexpiry i hmem hactive deadline hsome)
    · exact (not_iff_le_iff (h.waits_iff (mem_rows_iff.mp hmem) hwait hsome)).mp
        (hretry i hmem hwait deadline hsome)
  · intro halike
    have hexpiry : ∀ i ∈ db.items.rows, i.state.isActive = true → ∀ expiry,
        i.leaseExpiresAt = some expiry → (¬ after.KeepsFence i ↔ expiry ≤ now) :=
      fun i hmem hactive expiry hsome => (hfence (mem_rows_iff.mp hmem) hactive hsome).mpr
        (halike i hmem expiry (.inl ⟨hactive, hsome⟩))
    have hstored : ∀ {lease : DurablePerceptionWorkLease} {i},
        db.loadItem lease.workItemId = .ok i → i ∈ db.items.rows :=
      fun hload => KeyedTable.mem_of_find? (loadItem_eq_ok.mp hload)
    refine ⟨hexpiry, ?_, ?_, ?_⟩
    · intro i hmem hwait due hsome
      exact (not_iff_le_iff (h.waits_iff (mem_rows_iff.mp hmem) hwait hsome)).mpr
        (halike i hmem due (.inr ⟨hwait, hsome⟩))
    · intro lease i hlive hactive
      obtain ⟨item, hload, hlive⟩ := bind_eq_ok.mp hlive
      rw [raiseIf_bind_eq_ok, raiseIf_bind_eq_ok, Bool.not_eq_false'] at hlive
      obtain ⟨_, hunexpired, hitem⟩ := hlive
      cases hitem
      obtain ⟨expiry, hsome, hlt⟩ := (Option.any_eq_true _ _).mp hunexpired
      by_contra hgone
      exact absurd ((hexpiry i (hstored hload) hactive expiry hsome).mp hgone)
        (not_le.mpr (of_decide_eq_true hlt))
    · intro lease i expiry hload hactive hsome hraise
      refine (hexpiry i (hstored hload) hactive expiry hsome).mpr ?_
      by_contra hlt
      unfold liveLease at hraise
      rw [hload, ok_bind, hsome] at hraise
      simp only [Option.any_some, decide_eq_true (not_le.mp hlt), raiseIf] at hraise
      split at hraise
      · simp at hraise
      · cases hraise

/-- Stored deadlines compare as instants exactly when they are spelled like `now`: neither time
begins the second in which both lie, or both do. -/
theorem deadlines_compare_iff (S : SchedulerHashing)
    (calls : List (String × Instant × SchedulerCall)) (now : Instant) :
    (ComparesInstants (PerceptionDb.empty.afterCalls S calls) now
        ((PerceptionDb.empty.afterCalls S calls).reconcile now).2 ∧
      ∀ workerId seconds runKey workItemId token out,
        (PerceptionDb.empty.afterCalls S calls).claim workerId seconds runKey workItemId token now =
          .ok out → ComparesInstants (PerceptionDb.empty.afterCalls S calls) now out.2) ↔
      (PerceptionDb.empty.afterCalls S calls).DeadlinesAlike now := by
  have hlife := (calls_keep calls (barrierInv_empty S)).inv.life
  have hreconcile := comparesInstants_iff hlife (maintained_reconcile _ now)
  refine ⟨fun h => hreconcile.mp h.1, fun h => ⟨hreconcile.mpr h, ?_⟩⟩
  intro workerId seconds runKey workItemId token out hclaim
  exact (comparesInstants_iff hlife (maintained_claim hclaim)).mpr h

end Instants

/-! ## A lease of whole seconds -/

/-- Digests that spell the stage, which tells the items of the sample apart. -/
def sampleScheduler : SchedulerHashing where
  semanticSha256
    | .work identity => match identity.stage with
      | .mediaScan => "scan"
      | .perceptionObserve => "observe"
      | .observationProject => "project"
      | .temporalReconcile => "reconcile"
      | _ => "finalize"
    | _ => ""
  uuid5 text := text

theorem samplePlan_nonempty : [(⟨0, "", "", 0, 1⟩ : MageReasoningContext)] ≠ [] :=
  cons_ne_nil _ _

theorem samplePlan_ordinals : [(⟨0, "", "", 0, 1⟩ : MageReasoningContext)].map
    (·.focusSegmentOrdinal) = List.range 1 := rfl

/-- One context is registered, and its first item is claimed for a second. -/
def sampleCalls : List (String × Instant × SchedulerCall) :=
  [("", 0, .registerPlan ⟨"", "", [⟨0, "", "", 0, 1⟩], samplePlan_nonempty,
    samplePlan_ordinals⟩ "codec" 3),
    ("", 0, .claim "worker" 1 none none "token")]

/-- Half a second after the end of the lease, its text is still after that of the time. -/
theorem expired_lease_is_kept :
    ¬ ComparesInstants (PerceptionDb.empty.afterCalls sampleScheduler sampleCalls) 1500000
      ((PerceptionDb.empty.afterCalls sampleScheduler sampleCalls).reconcile 1500000).2 := by
  have hleased : (PerceptionDb.empty.afterCalls sampleScheduler sampleCalls).items.rows.any
      (fun i => i.state.isActive && i.leaseExpiresAt == some 1000000) = true := by
    decide +kernel
  intro h
  have halike := (comparesInstants_iff (calls_keep sampleCalls (barrierInv_empty _)).inv.life
    (maintained_reconcile _ _)).mp h
  obtain ⟨i, hi, hactive⟩ := any_eq_true.mp hleased
  rw [Bool.and_eq_true, beq_iff_eq] at hactive
  have hspelled := halike i hi 1000000 (.inl hactive)
  revert hspelled
  unfold SpelledAlike
  decide

end Robata.Perception
