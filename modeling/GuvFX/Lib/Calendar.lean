/-
# Dates and times of the calendar

The text of a time is read by its digits, the date is looked up in the Gregorian calendar, and the
seconds since the epoch follow from the number of the day.
-/
import Mathlib.Algebra.Order.Ring.Int
import Mathlib.Tactic.Lemma

namespace GuvFX
namespace Calendar

structure DateTime where
  year : ℕ
  month : ℕ
  day : ℕ
  hour : ℕ
  minute : ℕ
  second : ℕ
  deriving DecidableEq, Repr

def isLeap (year : ℕ) : Bool := year % 4 == 0 && (year % 100 != 0 || year % 400 == 0)

def daysInMonth (year month : ℕ) : ℕ :=
  if month = 2 then (if isLeap year then 29 else 28)
  else if month = 4 ∨ month = 6 ∨ month = 9 ∨ month = 11 then 30 else 31

def daysBeforeMonth (year month : ℕ) : ℕ :=
  ((List.range (month - 1)).map fun m => daysInMonth year (m + 1)).sum

def toOrdinal (year month day : ℕ) : ℕ :=
  (year - 1) * 365 + (year - 1) / 4 - (year - 1) / 100 + (year - 1) / 400
    + daysBeforeMonth year month + day

def epochOrdinal : ℕ := toOrdinal 1970 1 1

/-- The seconds since the epoch. -/
def timegm (t : DateTime) : ℤ :=
  let days : ℤ := toOrdinal t.year t.month t.day - epochOrdinal
  ((days * 24 + t.hour) * 60 + t.minute) * 60 + t.second

def DateTime.Valid (t : DateTime) : Prop :=
  (1 ≤ t.year ∧ t.year ≤ 9999) ∧ (1 ≤ t.month ∧ t.month ≤ 12) ∧
    (1 ≤ t.day ∧ t.day ≤ daysInMonth t.year t.month) ∧
    t.hour ≤ 23 ∧ t.minute ≤ 59 ∧ t.second ≤ 59

instance (t : DateTime) : Decidable t.Valid := by
  unfold DateTime.Valid; infer_instance

/-! ### Reading -/

/-- The number that a number of digits make, and what follows them. -/
def readDigits : ℕ → List Char → ℕ → Option (ℕ × List Char)
  | 0, cs, n => some (n, cs)
  | k + 1, c :: cs, n =>
    if '0' ≤ c ∧ c ≤ '9' then readDigits k cs (n * 10 + (c.toNat - '0'.toNat)) else none
  | _ + 1, [], _ => none

/-- One character, and what follows it. -/
def readThis (c : Char) : List Char → Option (List Char)
  | c' :: cs => if c' = c then some cs else none
  | [] => none

def readDateTime (cs : List Char) : Option (DateTime × List Char) := do
  let (year, cs) ← readDigits 4 cs 0
  let cs ← readThis '-' cs
  let (month, cs) ← readDigits 2 cs 0
  let cs ← readThis '-' cs
  let (day, cs) ← readDigits 2 cs 0
  let cs ← readThis 'T' cs
  let (hour, cs) ← readDigits 2 cs 0
  let cs ← readThis ':' cs
  let (minute, cs) ← readDigits 2 cs 0
  let cs ← readThis ':' cs
  let (second, cs) ← readDigits 2 cs 0
  pure (⟨year, month, day, hour, minute, second⟩, cs)

example : (readDateTime "2026-01-12T00:00:02Z".toList).map (fun r => timegm r.1) =
    some 1768176002 := by decide +kernel

/-! ### The texts that are read -/

def Digits (ds : List Char) : Prop := ∀ c ∈ ds, '0' ≤ c ∧ c ≤ '9'

def numberFrom (n : ℕ) (ds : List Char) : ℕ := ds.foldl (fun n c => n * 10 + (c.toNat - '0'.toNat)) n

lemma readDigits_eq_some {k n r : ℕ} {cs rest : List Char} : readDigits k cs n = some (r, rest) ↔
    ∃ ds, ds.length = k ∧ Digits ds ∧ numberFrom n ds = r ∧ cs = ds ++ rest := by
  induction k generalizing cs n with
  | zero =>
    simp only [readDigits, Option.some.injEq, Prod.mk.injEq, List.length_eq_zero_iff]
    constructor
    · rintro ⟨rfl, rfl⟩
      exact ⟨[], rfl, by simp [Digits], rfl, rfl⟩
    · rintro ⟨ds, rfl, -, rfl, rfl⟩
      exact ⟨rfl, rfl⟩
  | succ k ih =>
    cases cs with
    | nil =>
      simp only [readDigits, reduceCtorEq, false_iff]
      rintro ⟨ds, hlen, -, -, h⟩
      simp [(List.append_eq_nil_iff.mp h.symm).1] at hlen
    | cons c cs =>
      simp only [readDigits, Option.ite_none_right_eq_some, ih]
      constructor
      · rintro ⟨hc, ds, rfl, hds, rfl, rfl⟩
        exact ⟨c :: ds, rfl, List.forall_mem_cons.mpr ⟨hc, hds⟩, rfl, rfl⟩
      · rintro ⟨ds, hlen, hds, rfl, h⟩
        obtain ⟨d, ds, rfl⟩ := List.exists_cons_of_length_eq_add_one hlen
        obtain ⟨rfl, rfl⟩ := List.cons.inj h
        exact ⟨hds _ List.mem_cons_self, ds, Nat.succ.inj hlen,
          fun c hc => hds c (List.mem_cons_of_mem _ hc), rfl, rfl⟩

lemma readThis_eq_some {c : Char} {cs rest : List Char} :
    readThis c cs = some rest ↔ cs = c :: rest := by
  cases cs with
  | nil => simp [readThis]
  | cons d cs => simp [readThis]

structure Number (k n : ℕ) (ds : List Char) : Prop where
  length : ds.length = k
  digits : Digits ds
  value : numberFrom 0 ds = n

/-- The texts of a date and a time: `YYYY-MM-DDThh:mm:ss`. -/
def Written (t : DateTime) (cs : List Char) : Prop :=
  ∃ year month day hour minute second, Number 4 t.year year ∧ Number 2 t.month month ∧
    Number 2 t.day day ∧ Number 2 t.hour hour ∧ Number 2 t.minute minute ∧ Number 2 t.second second ∧
    cs = year ++ '-' :: (month ++ '-' :: (day ++ 'T' :: (hour ++ ':' :: (minute ++ ':' :: second))))

lemma readDateTime_eq_some {t : DateTime} {cs rest : List Char} :
    readDateTime cs = some (t, rest) ↔ ∃ front, Written t front ∧ cs = front ++ rest := by
  simp only [readDateTime, Option.bind_eq_bind, Option.bind_eq_some_iff, Prod.exists,
    readDigits_eq_some, readThis_eq_some, Option.pure_def, Option.some.injEq, Prod.mk.injEq]
  constructor
  · rintro ⟨_, _, ⟨y, hy, hyd, rfl, rfl⟩, _, rfl, _, _, ⟨m, hm, hmd, rfl, rfl⟩, _, rfl, _, _,
      ⟨d, hd, hdd, rfl, rfl⟩, _, rfl, _, _, ⟨h, hh, hhd, rfl, rfl⟩, _, rfl, _, _,
      ⟨i, hi, hid, rfl, rfl⟩, _, rfl, _, _, ⟨s, hs, hsd, rfl, rfl⟩, rfl, rfl⟩
    exact ⟨_, ⟨y, m, d, h, i, s, ⟨hy, hyd, rfl⟩, ⟨hm, hmd, rfl⟩, ⟨hd, hdd, rfl⟩, ⟨hh, hhd, rfl⟩,
      ⟨hi, hid, rfl⟩, ⟨hs, hsd, rfl⟩, rfl⟩, by simp⟩
  · rintro ⟨_, ⟨y, m, d, h, i, s, hy, hm, hd, hh, hi, hs, rfl⟩, rfl⟩
    exact ⟨_, _, ⟨y, hy.length, hy.digits, hy.value, by simp only [List.append_assoc, List.cons_append]⟩,
      _, rfl, _, _, ⟨m, hm.length, hm.digits, hm.value, rfl⟩, _, rfl, _, _,
      ⟨d, hd.length, hd.digits, hd.value, rfl⟩, _, rfl, _, _,
      ⟨h, hh.length, hh.digits, hh.value, rfl⟩, _, rfl, _, _,
      ⟨i, hi.length, hi.digits, hi.value, rfl⟩, _, rfl, _, _,
      ⟨s, hs.length, hs.digits, hs.value, rfl⟩, rfl, rfl⟩

end Calendar
end GuvFX
