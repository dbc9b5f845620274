/-
# The primitives of the market data contracts

The shapes of the texts that the contracts demand, the search for prohibited keys, and the exact
instants that times are compared as.  An instant is the whole second and the digits of its fraction,
without trailing zeros; the order of the digits as a text is the order of the numbers.
-/
import Mathlib.Data.Char
import Mathlib.Data.List.Lex
import Mathlib.Data.Prod.Lex
import GuvFX.Lib.Calendar
import GuvFX.Lib.Json
import GuvFX.Lib.Text

namespace GuvFX
namespace MarketData

inductive ContractError
  | prohibitedKey (place key : String)
  | controlCharacter (place : String)
  | notObject (place : String)
  | unknownFields (place : String) (fields : List String)
  | missingFields (place : String) (fields : List String)
  | notString (place : String)
  | empty (place : String)
  | tooLong (place : String) (characters : ℕ)
  | badFormat (place : String)
  | notOneOf (place : String) (options : List String)
  | notEqual (place value : String)
  | notBoolean (place : String)
  | notInteger (place : String)
  | below (place : String) (minimum : ℤ)
  | notArray (place : String)
  | notMinute (place : String)
  | notInstant (place : String)
  | notCalendar (place : String)
  | rule (place text : String)
  | exception (kind : String)
  deriving DecidableEq, Repr

def get (obj : Json) (name : String) : Option Json :=
  match obj with
  | .obj members => (members.find? fun m => m.1 = name).map (·.2)
  | _ => none

def item (obj : Json) (name : String) : Except ContractError Json :=
  match get obj name with
  | some v => .ok v
  | none => .error (.exception "KeyError")

def isNull : Json → Bool
  | .null => true
  | _ => false

/-! ### Shapes of texts -/

def isDigit (c : Char) : Bool := '0' ≤ c && c ≤ '9'
def isLower (c : Char) : Bool := 'a' ≤ c && c ≤ 'z'
def isUpper (c : Char) : Bool := 'A' ≤ c && c ≤ 'Z'

/-- The end of a pattern; a line feed may stand there. -/
def atEnd : List Char → Bool
  | [] => true
  | ['\n'] => true
  | _ => false

/-- A character out of `head`, then any number out of `tail`. -/
def slugLike (head tail : Char → Bool) (least most : ℕ) (s : String) : Bool :=
  match s.toList with
  | c :: cs =>
    let run := cs.takeWhile tail
    head c && least ≤ run.length && run.length ≤ most && atEnd (cs.dropWhile tail)
  | [] => false

def slugRe (s : String) : Bool :=
  slugLike (fun c => isLower c || isDigit c) (fun c => isLower c || isDigit c || c ∈ ['_', '-'])
    0 s.length s

def sha256Re (s : String) : Bool :=
  let hex := fun c => isDigit c || ('a' ≤ c && c ≤ 'f')
  slugLike hex hex 63 63 s

/-- A time to the second with a fraction that may be absent, in the zone `Z`; the digits of the
fraction are given too. -/
def readInstant (cs : List Char) : Option (Calendar.DateTime × List Char) :=
  match Calendar.readDateTime cs with
  | none => none
  | some (t, 'Z' :: rest) => if atEnd rest then some (t, []) else none
  | some (t, '.' :: rest) =>
    match rest.takeWhile isDigit, rest.dropWhile isDigit with
    | [], _ => none
    | digits, 'Z' :: rest => if atEnd rest then some (t, digits) else none
    | _, _ => none
  | some _ => none

def instantUtcRe (s : String) : Bool := (readInstant s.toList).isSome

/-- A time to the minute in the zone `Z`. -/
def minuteUtcRe (s : String) : Bool :=
  match Calendar.readDateTime s.toList with
  | some (_, 'Z' :: rest) => atEnd rest && (s.toList.drop 17).take 2 == ['0', '0']
  | _ => false

/-! ### Prohibited keys -/

def prohibitedKeys : List String :=
  ["password", "token", "secret", "api_key", "login", "account_number"]

def isProhibited (key : String) : Bool := Text.lower (Text.strip key) ∈ prohibitedKeys

mutual

def findProhibitedKey : Json → Option String
  | .arr items => findInItems items
  | .obj members => findInMembers members
  | _ => none

def findInItems : List Json → Option String
  | [] => none
  | v :: vs => (findProhibitedKey v).or (findInItems vs)

def findInMembers : List (String × Json) → Option String
  | [] => none
  | (key, v) :: ms =>
    if isProhibited key then some key else (findProhibitedKey v).or (findInMembers ms)

end

/-! ### Instants -/

def minCanonicalEpochS : ℤ := Calendar.timegm ⟨1, 1, 1, 0, 0, 0⟩
def maxCanonicalEpochS : ℤ := Calendar.timegm ⟨9999, 12, 31, 23, 59, 59⟩

structure UtcInstant where
  epochS : ℤ
  fracDigits : List Char
  inDomain : minCanonicalEpochS ≤ epochS ∧ epochS ≤ maxCanonicalEpochS
  normal : fracDigits.all isDigit = true ∧ fracDigits.getLast? ≠ some '0'

namespace UtcInstant

def key (i : UtcInstant) : ℤ ×ₗ List Char := toLex (i.epochS, i.fracDigits)

lemma key_injective : Function.Injective key := by
  rintro ⟨s, d, hs, hd⟩ ⟨s', d', hs', hd'⟩ h
  simp only [key, EmbeddingLike.apply_eq_iff_eq, Prod.mk.injEq] at h
  obtain ⟨rfl, rfl⟩ := h
  rfl

instance : LinearOrder UtcInstant := LinearOrder.lift' key key_injective

lemma le_def {i j : UtcInstant} : i ≤ j ↔ i.key ≤ j.key := Iff.rfl

def NotBefore (second : ℤ) (i : UtcInstant) : Prop := toLex (second, []) ≤ i.key

instance (second : ℤ) (i : UtcInstant) : Decidable (NotBefore second i) := by
  unfold NotBefore; infer_instance

lemma notBefore_iff {second : ℤ} {i : UtcInstant} : NotBefore second i ↔ second ≤ i.epochS := by
  unfold NotBefore key
  rw [Prod.Lex.le_iff]
  simp only [ofLex_toLex]
  constructor
  · rintro (h | ⟨h, -⟩)
    · exact h.le
    · exact h.le
  · intro h
    rcases h.lt_or_eq with h | h
    · exact Or.inl h
    · exact Or.inr ⟨h, not_lt.mp (List.not_lt_nil i.fracDigits)⟩

lemma NotBefore.trans {second : ℤ} {i j : UtcInstant} (h : NotBefore second i) (hij : i ≤ j) :
    NotBefore second j := le_trans h (le_def.mp hij)

/-- The checks of the constructor. -/
def make (epochS : ℤ) (fracDigits : List Char) : Except ContractError UtcInstant :=
  if hd : minCanonicalEpochS ≤ epochS ∧ epochS ≤ maxCanonicalEpochS then
    if hn : fracDigits.all isDigit = true ∧ fracDigits.getLast? ≠ some '0' then
      .ok ⟨epochS, fracDigits, hd, hn⟩
    else .error (.rule "UtcInstant" "fractional digits must be normalized ASCII decimal digits")
  else .error (.rule "UtcInstant" "epoch is outside the canonical year 0001-9999 domain")

lemma epochS_of_make {epochS : ℤ} {digits : List Char} {i : UtcInstant}
    (h : make epochS digits = .ok i) : i.epochS = epochS := by
  unfold make at h
  split_ifs at h
  cases h
  rfl

end UtcInstant

def rstripZeros (digits : List Char) : List Char := (digits.reverse.dropWhile (· = '0')).reverse

def parseInstant (s : String) : Except ContractError UtcInstant :=
  match readInstant s.toList with
  | none => .error (.rule "UTC instant" "value is not a canonical UTC 'Z' instant")
  | some (t, digits) =>
    if t.Valid then UtcInstant.make (Calendar.timegm t) (rstripZeros digits)
    else .error (.rule "UTC instant" "value is not a valid calendar instant")

def parseCanonicalUtcInstant : Json → Except ContractError UtcInstant
  | .str s => parseInstant s
  | _ => .error (.rule "UTC instant" "must be a string")

end MarketData
end GuvFX
