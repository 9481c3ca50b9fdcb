import Mathlib.Data.Rat.Defs
import Robata.Contracts.Common

/-!
# Values read from mappings

What `json.loads` returns and `Mapping[str, Any]` arguments hold: a value that is not of the
expected kind is refused by the code that reads it, so that the kinds are constructors here.  A
mapping is a list of entries with different keys, in insertion order.
-/

namespace Robata.Contracts

inductive JsonValue
  | null
  | bool (value : Bool)
  | int (value : Int)
  -- nothing for an infinity and for a value that is not a number
  | float (value : Option Rat)
  | text (value : String)
  | list (items : List JsonValue)
  | object (entries : List (String × JsonValue))

abbrev JsonObject := List (String × JsonValue)

mutual

/-- Equality of values, by their structure. -/
def JsonValue.decideEq : (a b : JsonValue) → Decidable (a = b)
  | .null, b => decidable_of_iff (b matches .null) (by cases b <;> simp)
  | .bool x, b => match b with
    | .bool y => decidable_of_iff (x = y) (by simp)
    | .null | .int _ | .float _ | .text _ | .list _ | .object _ => isFalse nofun
  | .int x, b => match b with
    | .int y => decidable_of_iff (x = y) (by simp)
    | .null | .bool _ | .float _ | .text _ | .list _ | .object _ => isFalse nofun
  | .float x, b => match b with
    | .float y => decidable_of_iff (x = y) (by simp)
    | .null | .bool _ | .int _ | .text _ | .list _ | .object _ => isFalse nofun
  | .text x, b => match b with
    | .text y => decidable_of_iff (x = y) (by simp)
    | .null | .bool _ | .int _ | .float _ | .list _ | .object _ => isFalse nofun
  | .list xs, b => match b with
    | .list ys => match JsonValue.decideEqItems xs ys with
      | isTrue h => isTrue (h ▸ rfl)
      | isFalse h => isFalse fun e => h (JsonValue.list.inj e)
    | .null | .bool _ | .int _ | .float _ | .text _ | .object _ => isFalse nofun
  | .object xs, b => match b with
    | .object ys => match JsonValue.decideEqEntries xs ys with
      | isTrue h => isTrue (h ▸ rfl)
      | isFalse h => isFalse fun e => h (JsonValue.object.inj e)
    | .null | .bool _ | .int _ | .float _ | .text _ | .list _ => isFalse nofun

def JsonValue.decideEqItems : (xs ys : List JsonValue) → Decidable (xs = ys)
  | [], [] => isTrue rfl
  | [], _ :: _ => isFalse nofun
  | _ :: _, [] => isFalse nofun
  | x :: xs, y :: ys => match JsonValue.decideEq x y, JsonValue.decideEqItems xs ys with
    | isTrue h, isTrue h' => isTrue (h ▸ h' ▸ rfl)
    | isFalse h, _ => isFalse fun e => h (List.cons.inj e).1
    | _, isFalse h => isFalse fun e => h (List.cons.inj e).2

def JsonValue.decideEqEntries : (xs ys : List (String × JsonValue)) → Decidable (xs = ys)
  | [], [] => isTrue rfl
  | [], _ :: _ => isFalse nofun
  | _ :: _, [] => isFalse nofun
  | (k, x) :: xs, (l, y) :: ys =>
    match decEq k l, JsonValue.decideEq x y, JsonValue.decideEqEntries xs ys with
    | isTrue h, isTrue h', isTrue h'' => isTrue (h ▸ h' ▸ h'' ▸ rfl)
    | isFalse h, _, _ => isFalse fun e => h (Prod.mk.inj (List.cons.inj e).1).1
    | _, isFalse h, _ => isFalse fun e => h (Prod.mk.inj (List.cons.inj e).1).2
    | _, _, isFalse h => isFalse fun e => h (List.cons.inj e).2

end

instance : DecidableEq JsonValue := JsonValue.decideEq

namespace JsonValue

/-- `value is None`. -/
def isNull : JsonValue → Bool
  | null => true
  | _ => false

/-- `bool(value)`. -/
def truthy : JsonValue → Bool
  | null => false
  | bool b => b
  | int n => n != 0
  | float q => q != some 0
  | text s => s != ""
  | list items => !items.isEmpty
  | object entries => !entries.isEmpty

/-- `value == n` for an integer `n`. -/
def equalsInt (n : Int) : JsonValue → Bool
  | bool b => (if b then 1 else 0) == n
  | int m => m == n
  | float q => q == some (n : Rat)
  | _ => false

/-- The value, if it is an `int` and not a `bool`. -/
def asInt? : JsonValue → Option Int
  | int n => some n
  | _ => none

/-- The value, if it is a `str`. -/
def asText? : JsonValue → Option String
  | text s => some s
  | _ => none

theorem equalsInt_of_asInt? {value : JsonValue} {n : Int} (h : value.asInt? = some n) :
    value.equalsInt n = true := by
  cases value <;> simp [asInt?, equalsInt] at h ⊢
  exact h

end JsonValue

namespace JsonObject

variable (o : JsonObject)

/-- `key in o`. -/
def has (key : String) : Bool := o.any fun entry => entry.1 == key

/-- `o[key]`, if the key is there. -/
def get? (key : String) : Option JsonValue := (o.find? fun entry => entry.1 == key).map Prod.snd

/-- `o.get(key)`. -/
def getD (key : String) : JsonValue := (get? o key).getD .null

/-- `o[key] = value`. -/
def set (key : String) (value : JsonValue) : JsonObject :=
  if has o key then o.map fun entry => if entry.1 == key then (key, value) else entry
  else o ++ [(key, value)]

def pop (key : String) : JsonObject := o.filter fun entry => entry.1 != key

variable {o}

theorem get?_eq_none_of_has {key : String} (h : has o key = false) : get? o key = none := by
  unfold get? has at *
  rw [List.any_eq_false] at h
  rw [List.find?_eq_none.mpr h]
  rfl

theorem get?_set (key j : String) (value : JsonValue) :
    get? (set o key value) j = if j = key then some value else get? o j := by
  unfold get? set
  split
  · -- the entry of the key is replaced where it stands
    rename_i hhas
    unfold has at hhas
    induction o with
    | nil => nomatch hhas
    | cons entry rest ih =>
      rw [List.any_cons, Bool.or_eq_true, beq_iff_eq] at hhas
      by_cases hentry : entry.1 = key
      · by_cases hj : j = key
        · simp [hentry, hj]
        · have hrest : ∀ l : JsonObject, ((l.map fun entry =>
              if entry.1 == key then (key, value) else entry).find? fun entry => entry.1 == j) =
              l.find? fun entry => entry.1 == j := by
            intro l
            induction l with
            | nil => rfl
            | cons head tail ih =>
              by_cases hhead : head.1 = key
              · simpa [hhead, Ne.symm hj] using ih
              · by_cases hheadj : head.1 = j
                · simp [hheadj, hj]
                · simpa [hhead, hheadj] using ih
          rw [if_neg hj, hrest]
      · have htail := ih (hhas.resolve_left hentry)
        by_cases hheadj : entry.1 = j
        · have hj : j ≠ key := fun hj => hentry (hheadj.trans hj)
          simp [hheadj, hj]
        · simpa [hentry, hheadj] using htail
  · rename_i hhas
    have hnone := get?_eq_none_of_has (Bool.not_eq_true _ ▸ hhas)
    unfold get? at hnone
    by_cases hj : j = key
    · rw [hj]
      rw [Option.map_eq_none_iff] at hnone
      simp [hnone]
    · rw [if_neg hj]
      simp [Ne.symm hj]

theorem getD_set (key j : String) (value : JsonValue) :
    getD (set o key value) j = if j = key then value else getD o j := by
  unfold getD
  rw [get?_set]
  split <;> rfl

theorem getD_of_has {key : String} (h : has o key = false) : getD o key = .null := by
  unfold getD
  rw [get?_eq_none_of_has h]
  rfl

end JsonObject

/-- 64 lowercase hexadecimal characters. -/
def isSha256 (text : String) : Bool :=
  text.length == 64 && text.toList.all fun c => "0123456789abcdef".toList.contains c

end Robata.Contracts
