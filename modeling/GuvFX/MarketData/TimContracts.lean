/-
# The checks that the release contracts are written with

A check looks at one field of an object and returns its value, or says which field does not hold to
the contract.  Checks follow one another in the order of the source; the first one that fails is the
error of the whole.
-/
import Mathlib.Data.List.Sort
import GuvFX.MarketData.Contracts

namespace GuvFX
namespace MarketData

/-! ### Shapes and tables -/

def canonicalSymbolRe (s : String) : Bool :=
  let rest := fun c => isUpper c || isDigit c || c ∈ ['.', '_', '-']
  slugLike (fun c => isUpper c || isDigit c) rest 2 31 s

/-- The segments of a relative path; `start` says that a segment begins here. -/
def relSegments : Bool → List Char → Bool
  | true, c :: cs =>
    (isUpper c || isLower c || isDigit c || c ∈ ['_', '-']) && relSegments false cs
  | true, [] => false
  | false, [] => true
  | false, ['\n'] => true
  | false, '/' :: cs => relSegments true cs
  | false, c :: cs =>
    (isUpper c || isLower c || isDigit c || c ∈ ['_', '.', '-']) && relSegments false cs

def relPathRe (s : String) : Bool := relSegments true s.toList

def timeframeSeconds : List (String × ℕ) :=
  [("M1", 60), ("M5", 300), ("M15", 900), ("M30", 1800), ("H1", 3600), ("H4", 14400), ("D1", 86400),
    ("W1", 604800)]

def timeframes : List String := timeframeSeconds.map (·.1)

def secondsOf (timeframe : String) : ℕ :=
  ((timeframeSeconds.find? fun t => t.1 = timeframe).map (·.2)).getD 0

def assetClasses : List String := ["fx", "metal", "index", "commodity", "crypto", "equity"]

def licensing : List String :=
  ["internal_research_only", "licensed_redistribution", "unlicensed_quarantine"]

/-! ### Checks -/

def ensure (condition : Prop) [Decidable condition] (e : ContractError) : Except ContractError Unit :=
  if condition then .ok () else .error e

lemma ensure_eq_ok {condition : Prop} [Decidable condition] {e : ContractError} {u : Unit}
    (h : ensure condition e = .ok u) : condition := by
  unfold ensure at h
  split_ifs at h with hc
  exact hc

/-- What two checks in a row have come to. -/
lemma exists_of_bind_eq_ok {α β : Type} {x : Except ContractError α}
    {f : α → Except ContractError β} {b : β} (h : (x >>= f) = .ok b) :
    ∃ a, x = .ok a ∧ f a = .ok b := by
  cases x with
  | error e => cases h
  | ok a => exact ⟨a, rfl, h⟩

lemma bind_eq_ok_iff {α β : Type} {x : Except ContractError α} {f : α → Except ContractError β}
    {b : β} : (x >>= f) = .ok b ↔ ∃ a, x = .ok a ∧ f a = .ok b := by
  constructor
  · exact exists_of_bind_eq_ok
  · rintro ⟨a, rfl, h⟩
    exact h

def noProhibited (obj : Json) (place : String) : Except ContractError Unit :=
  match findProhibitedKey obj with
  | some key => .error (.prohibitedKey place key)
  | none => .ok ()

def exactKeys (obj : Json) (fields : List String) (place : String) : Except ContractError Unit :=
  match obj with
  | .obj members =>
    let keys := members.map (·.1)
    let extra := keys.filter (· ∉ fields)
    let missing := fields.filter (· ∉ keys)
    if extra ≠ [] then .error (.unknownFields place (extra.insertionSort (· ≤ ·)))
    else if missing ≠ [] then .error (.missingFields place (missing.insertionSort (· ≤ ·)))
    else .ok ()
  | _ => .error (.notObject place)

/-- What a text has to be. -/
structure StrRule where
  regex : Option (String → Bool) := none
  oneOf : Option (List String) := none
  maxLen : Option ℕ := none
  minLen : ℕ := 1

def at_ (place field : String) : String := place ++ "." ++ field

def str (obj : Json) (field place : String) (r : StrRule) : Except ContractError String :=
  match get obj field with
  | some (.str v) =>
    if v.length < r.minLen then .error (.empty (at_ place field))
    else if r.maxLen.any (· < v.length) then
      .error (.tooLong (at_ place field) (r.maxLen.getD 0))
    else if r.regex.any (fun re => !re v) then .error (.badFormat (at_ place field))
    else if r.oneOf.any (v ∉ ·) then .error (.notOneOf (at_ place field) (r.oneOf.getD []))
    else .ok v
  | _ => .error (.notString (at_ place field))

def const (obj : Json) (field place value : String) : Except ContractError Unit :=
  match get obj field with
  | some (.str v) => ensure (v = value) (.notEqual (at_ place field) value)
  | _ => .error (.notEqual (at_ place field) value)

def bool (obj : Json) (field place : String) : Except ContractError Bool :=
  match get obj field with
  | some (.bool b) => .ok b
  | _ => .error (.notBoolean (at_ place field))

/-- A number of at least zero. -/
def int (obj : Json) (field place : String) : Except ContractError ℤ :=
  match get obj field with
  | some (.int n) => if n < 0 then .error (.below (at_ place field) 0) else .ok n
  | _ => .error (.notInteger (at_ place field))

/-- A number of at least zero that may be absent. -/
def nullableInt (obj : Json) (field place : String) : Except ContractError (Option ℤ) :=
  match get obj field with
  | none | some .null => .ok none
  | _ => (int obj field place).map some

def array (obj : Json) (field place : String) : Except ContractError (List Json) :=
  match get obj field with
  | some (.arr items) => .ok items
  | _ => .error (.notArray (at_ place field))

def isStr : Json → Bool
  | .str _ => true
  | _ => false

def strArray (obj : Json) (field place : String) : Except ContractError (List Json) := do
  let items ← array obj field place
  match items.findIdx? fun v => !isStr v with
  | some i => .error (.notString (at_ place field ++ "[" ++ toString i ++ "]"))
  | none => .ok items

def minuteEpoch (value : Json) (place : String) : Except ContractError ℤ :=
  match value with
  | .str s =>
    if minuteUtcRe s then
      match Calendar.readDateTime s.toList with
      | some (t, ['Z']) =>
        if t.Valid then .ok (Calendar.timegm t) else .error (.notCalendar place)
      | _ => .error (.notCalendar place)
    else .error (.notMinute place)
  | _ => .error (.notMinute place)

def instant (value : Json) (place : String) : Except ContractError UtcInstant :=
  match value with
  | .str s => if instantUtcRe s then parseInstant s else .error (.notInstant place)
  | _ => .error (.notInstant place)

lemma item_eq_ok_iff {obj v : Json} {name : String} : item obj name = .ok v ↔ get obj name = some v := by
  unfold item
  cases get obj name <;> simp

lemma str_eq_ok {obj : Json} {field place v : String} {r : StrRule} (h : str obj field place r = .ok v) :
    get obj field = some (.str v) := by
  unfold str at h
  split at h
  · rename_i v' hv
    split_ifs at h
    cases h
    exact hv
  · cases h

lemma int_eq_ok {obj : Json} {field place : String} {n : ℤ} (h : int obj field place = .ok n) :
    get obj field = some (.int n) := by
  unfold int at h
  split at h
  · rename_i n' hn
    split_ifs at h
    cases h
    exact hn
  · cases h

lemma epochS_of_minuteEpoch {value : Json} {place : String} {e : ℤ} {i : UtcInstant}
    (he : minuteEpoch value place = .ok e) (hi : parseCanonicalUtcInstant value = .ok i) :
    i.epochS = e := by
  cases value with
  | str s =>
    simp only [minuteEpoch] at he
    split_ifs at he with hre
    cases hread : Calendar.readDateTime s.toList with
    | none => simp only [hread] at he; cases he
    | some r =>
      obtain ⟨t, rest⟩ := r
      simp only [hread] at he
      split at he
      · rename_i t' heq
        cases heq
        split_ifs at he with hv
        cases he
        have hinst : readInstant s.toList = some (t, []) := by
          unfold readInstant
          rw [hread]
          rfl
        simp only [parseCanonicalUtcInstant, parseInstant, hinst, if_pos hv] at hi
        exact UtcInstant.epochS_of_make hi
      · cases he
  | _ => cases he

lemma parse_of_instant {value : Json} {place : String} {i : UtcInstant}
    (h : instant value place = .ok i) : parseCanonicalUtcInstant value = .ok i := by
  cases value with
  | str s =>
    simp only [instant] at h
    split_ifs at h
    exact h
  | _ => cases h

end MarketData
end GuvFX
