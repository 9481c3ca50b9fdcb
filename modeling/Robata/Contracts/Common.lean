import Mathlib.Tactic

/-!
# Shared contract types

The scalar contracts that several subsystems read: the texts that identify
content, signed 64-bit nanoseconds, and the nonempty half-open interval made of
two of them.  The patterns that the texts match are checked where they enter the
program; they are compared as texts.
-/

namespace Robata.Contracts

abbrev NodeLogicalKey := String
abbrev Sha256Digest := String
abbrev OpaqueUuid := String
abbrev SchemaVersion := String

/-- The six cameras of a recording. -/
inductive CameraId
  | cam01
  | cam02
  | cam03
  | cam04
  | cam05
  | cam06
  deriving DecidableEq

namespace CameraId

/-- `CAMERA_IDS`. -/
def all : List CameraId := [cam01, cam02, cam03, cam04, cam05, cam06]

theorem mem_all (c : CameraId) : c ∈ all := by
  cases c <;> decide

def value : CameraId → String
  | cam01 => "cam_01"
  | cam02 => "cam_02"
  | cam03 => "cam_03"
  | cam04 => "cam_04"
  | cam05 => "cam_05"
  | cam06 => "cam_06"

end CameraId

/-- The largest integer that RFC 8785 represents. -/
def exactLimit : Nat := 2 ^ 53 - 1

/-- `semantic_sha256`, `none` where it raises `CanonicalizationError`: a projection whose integers
have these magnitudes has a digest exactly if RFC 8785 represents them. -/
def HashesExactly {α : Type} (magnitudes : α → List Nat)
    (semanticSha256 : α → Option Sha256Digest) : Prop :=
  ∀ projection, (semanticSha256 projection).isSome = true ↔
    ∀ n ∈ magnitudes projection, n ≤ exactLimit

/-- A digest wherever RFC 8785 has a canonical form. -/
def exactDigest {α : Type} (magnitudes : α → List Nat) (digest : α → Sha256Digest)
    (projection : α) : Option Sha256Digest :=
  if ∀ n ∈ magnitudes projection, n ≤ exactLimit then some (digest projection) else none

theorem hashesExactly_exactDigest {α : Type} (magnitudes : α → List Nat)
    (digest : α → Sha256Digest) : HashesExactly magnitudes (exactDigest magnitudes digest) := by
  intro projection
  unfold exactDigest
  split_ifs with h
  · exact ⟨fun _ => h, fun _ => rfl⟩
  · exact iff_of_false Bool.false_ne_true h

def int64Min : Int := -9223372036854775808

def int64Max : Int := 9223372036854775807

/-- A nonempty half-open interval `[startNs, endNs)`. -/
@[ext] structure NanosecondInterval where
  (startNs endNs : Int)
  lower : int64Min ≤ startNs
  upper : endNs ≤ int64Max
  nonempty : startNs < endNs
  deriving DecidableEq

namespace NanosecondInterval

/-- The constructor, with its validation. -/
def make? (startNs endNs : Int) : Option NanosecondInterval :=
  if h : int64Min ≤ startNs ∧ endNs ≤ int64Max ∧ startNs < endNs then
    some ⟨startNs, endNs, h.1, h.2.1, h.2.2⟩
  else
    none

/-- The two ends of an interval. -/
def bounds (i : NanosecondInterval) : Int × Int := (i.startNs, i.endNs)

theorem bounds_of_make? {startNs endNs : Int} {i : NanosecondInterval}
    (h : make? startNs endNs = some i) : i.bounds = (startNs, endNs) := by
  unfold make? at h
  split at h
  · cases h
    rfl
  · cases h

theorem make?_completes {startNs endNs : Int} (hlower : int64Min ≤ startNs)
    (hupper : endNs ≤ int64Max) (hnonempty : startNs < endNs) :
    ∃ i, make? startNs endNs = some i ∧ i.startNs = startNs ∧ i.endNs = endNs :=
  ⟨⟨startNs, endNs, hlower, hupper, hnonempty⟩, dif_pos ⟨hlower, hupper, hnonempty⟩, rfl, rfl⟩

/-- The smallest interval that covers both. -/
def hull (a b : NanosecondInterval) : NanosecondInterval where
  startNs := min a.startNs b.startNs
  endNs := max a.endNs b.endNs
  lower := le_min a.lower b.lower
  upper := max_le a.upper b.upper
  nonempty := lt_of_le_of_lt (min_le_left _ _) (lt_of_lt_of_le a.nonempty (le_max_left _ _))

end NanosecondInterval
end Robata.Contracts
