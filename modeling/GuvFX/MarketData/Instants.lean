/-
# The order of the exact instants

An instant that has been read is compared by its second and by the digits of its fraction, as a text.
The texts denote rational numbers of seconds; the digits without trailing zeros are ordered as the
fractions that they are, so that the comparisons are those of the numbers.  The shape of the text is
tested by a pattern whose end lets a line feed pass.
-/
import Mathlib.Data.Int.ConditionallyCompleteOrder
import Mathlib.Algebra.Order.Field.Rat
import Mathlib.Tactic.Linarith
import Mathlib.Tactic.Positivity
import GuvFX.MarketData.Contracts

namespace GuvFX
namespace MarketData

/-! ### Fractions -/

def fraction : List Char → ℚ
  | [] => 0
  | c :: cs => ((c.toNat - '0'.toNat : ℕ) + fraction cs) / 10

variable {ds ds' : List Char}

lemma fraction_nonneg (ds : List Char) : 0 ≤ fraction ds := by
  induction ds with
  | nil => exact le_rfl
  | cons c cs ih => simp only [fraction]; positivity

lemma isDigit_iff {c : Char} : isDigit c = true ↔ '0' ≤ c ∧ c ≤ '9' := by simp [isDigit]

lemma digit_le {c : Char} (hc : isDigit c = true) : c.toNat - '0'.toNat ≤ 9 := by
  have h : c.toNat ≤ '9'.toNat := (isDigit_iff.mp hc).2
  have h0 : '9'.toNat = 57 ∧ '0'.toNat = 48 := by decide
  omega

lemma digit_lt {c c' : Char} (hc : isDigit c = true) (h : c < c') :
    c.toNat - '0'.toNat + 1 ≤ c'.toNat - '0'.toNat := by
  have hlt : c.toNat < c'.toNat := h
  have hle : '0'.toNat ≤ c.toNat := (isDigit_iff.mp hc).1
  omega

lemma fraction_lt_one (h : ds.all isDigit = true) : fraction ds < 1 := by
  induction ds with
  | nil => exact one_pos
  | cons c cs ih =>
    rw [List.all_cons, Bool.and_eq_true] at h
    have hc : ((c.toNat - '0'.toNat : ℕ) : ℚ) ≤ 9 := by exact_mod_cast digit_le h.1
    have hcs := ih h.2
    simp only [fraction]
    linarith

lemma fraction_pos {c : Char} {cs : List Char} (h : (c :: cs).all isDigit = true)
    (hlast : (c :: cs).getLast? ≠ some '0') : 0 < fraction (c :: cs) := by
  induction cs generalizing c with
  | nil =>
    rw [List.all_cons, Bool.and_eq_true] at h
    have hne : '0' < c := lt_of_le_of_ne (isDigit_iff.mp h.1).1 fun heq => hlast (by rw [← heq]; rfl)
    have hpos : (1 : ℚ) ≤ (c.toNat - '0'.toNat : ℕ) := by
      exact_mod_cast (digit_lt (by decide) hne : '0'.toNat - '0'.toNat + 1 ≤ _)
    simp only [fraction]
    linarith
  | cons d cs ih =>
    rw [List.all_cons, Bool.and_eq_true] at h
    have hrest := ih h.2 (by rwa [List.getLast?_cons_cons] at hlast)
    have hc : (0 : ℚ) ≤ (c.toNat - '0'.toNat : ℕ) := Nat.cast_nonneg _
    rw [fraction]
    linarith

lemma fraction_lt (h : ds < ds') (hd : ds.all isDigit = true) (hd' : ds'.all isDigit = true)
    (hlast : ds'.getLast? ≠ some '0') : fraction ds < fraction ds' := by
  induction ds generalizing ds' with
  | nil =>
    cases ds' with
    | nil => exact absurd h (lt_irrefl _)
    | cons c cs => exact fraction_pos hd' hlast
  | cons c cs ih =>
    cases ds' with
    | nil => exact absurd h (List.not_lt_nil _)
    | cons c' cs' =>
      rw [List.all_cons, Bool.and_eq_true] at hd hd'
      have hone := fraction_lt_one hd.2
      have hnonneg := fraction_nonneg cs'
      simp only [fraction]
      rcases List.cons_lt_cons_iff.mp h with hlt | ⟨rfl, hlt⟩
      · have hdigit : ((c.toNat - '0'.toNat : ℕ) : ℚ) + 1 ≤ (c'.toNat - '0'.toNat : ℕ) := by
          exact_mod_cast digit_lt hd.1 hlt
        linarith
      · have hlast' : cs'.getLast? ≠ some '0' := by
          cases cs' with
          | nil => simp
          | cons d cs' => rwa [List.getLast?_cons_cons] at hlast
        have hrest := ih hlt hd.2 hd'.2 hlast'
        linarith

lemma fraction_rstripZeros (ds : List Char) : fraction (rstripZeros ds) = fraction ds := by
  -- a zero at the end adds nothing
  have hzero : ∀ l : List Char, fraction (l ++ ['0']) = fraction l := by
    intro l
    induction l with
    | nil => simp [fraction]
    | cons c cs ih => simp only [List.cons_append, fraction, ih]
  induction ds using List.reverseRecOn with
  | nil => rfl
  | append_singleton ds c ih =>
    unfold rstripZeros at ih ⊢
    rw [List.reverse_append, List.reverse_singleton, List.singleton_append, List.dropWhile_cons]
    split_ifs with hc
    · obtain rfl := of_decide_eq_true hc
      rw [ih, hzero]
    · rw [List.reverse_cons, List.reverse_reverse]

/-! ### Instants -/

def UtcInstant.value (i : UtcInstant) : ℚ := i.epochS + fraction i.fracDigits

def keyValue (k : ℤ ×ₗ List Char) : ℚ := (ofLex k).1 + fraction (ofLex k).2

/-- The keys of instants and of whole seconds. -/
def Normal (k : ℤ ×ₗ List Char) : Prop :=
  (ofLex k).2.all isDigit = true ∧ (ofLex k).2.getLast? ≠ some '0'

lemma strictMonoOn_keyValue : StrictMonoOn keyValue {k | Normal k} := by
  intro k hk k' hk' h
  have hone := fraction_lt_one hk.1
  have hnonneg := fraction_nonneg (ofLex k').2
  simp only [keyValue]
  rcases Prod.Lex.lt_iff.mp h with h | ⟨h, hlt⟩
  · have he : ((ofLex k).1 : ℚ) + 1 ≤ (ofLex k').1 := by exact_mod_cast h
    linarith
  · have hfraction := fraction_lt hlt hk.1 hk'.1 hk'.2
    rw [h]
    linarith

lemma normal_key (i : UtcInstant) : Normal i.key := i.normal

lemma normal_second (n : ℤ) : Normal (toLex (n, [])) := ⟨rfl, by simp⟩

/-- A text with a shape and the number of seconds that it denotes. -/
def Denotes (cs : List Char) (x : ℚ) (rest : List Char) : Prop :=
  ∃ t front digits, Calendar.Written t front ∧ t.Valid ∧ digits.all isDigit = true ∧
    cs = front ++ (if digits = [] then [] else '.' :: digits) ++ 'Z' :: rest ∧
    x = Calendar.timegm t + fraction digits

lemma atEnd_iff {cs : List Char} : atEnd cs = true ↔ cs = [] ∨ cs = ['\n'] := by
  unfold atEnd
  split <;> simp_all

lemma denotes_of_readInstant {cs digits : List Char} {t : Calendar.DateTime}
    (h : readInstant cs = some (t, digits)) (hv : t.Valid) :
    ∃ rest, Denotes cs (Calendar.timegm t + fraction digits) rest ∧ (rest = [] ∨ rest = ['\n']) := by
  unfold readInstant at h
  split at h
  · cases h
  · rename_i t' rest hread
    split_ifs at h with hend
    cases h
    obtain ⟨front, hfront, rfl⟩ := Calendar.readDateTime_eq_some.mp hread
    exact ⟨rest, ⟨t, front, [], hfront, hv, rfl, by simp, rfl⟩, atEnd_iff.mp hend⟩
  · rename_i t' rest hread
    obtain ⟨front, hfront, rfl⟩ := Calendar.readDateTime_eq_some.mp hread
    have hall : (rest.takeWhile isDigit).all isDigit = true := List.all_takeWhile
    split at h
    · cases h
    · rename_i rest' hz hne
      split_ifs at h with hend
      cases h
      refine ⟨rest', ⟨t, front, _, hfront, hv, hall, ?_, rfl⟩, atEnd_iff.mp hend⟩
      have hcs : rest = rest.takeWhile isDigit ++ 'Z' :: rest' := by
        rw [← hz, List.takeWhile_append_dropWhile]
      rw [if_neg hne, List.append_assoc, List.cons_append, ← hcs]
    · cases h
  · cases h

variable {s : String} {i j : UtcInstant}

lemma value_of_parseInstant (h : parseInstant s = .ok i) :
    ∃ rest, Denotes s.toList i.value rest ∧ (rest = [] ∨ rest = ['\n']) := by
  unfold parseInstant at h
  split at h
  · cases h
  · rename_i t digits hread
    split_ifs at h with hv
    have hvalue : i.value = Calendar.timegm t + fraction digits := by
      unfold UtcInstant.make at h
      split_ifs at h
      cases h
      simp only [UtcInstant.value, fraction_rstripZeros]
    rw [hvalue]
    exact denotes_of_readInstant hread hv

/-! ### The claim about a text -/

/-- An accepted text has the shape and nothing after it, and its instant compares, with every other
instant and with every second, as the number that the text denotes. -/
def ExactInstant (s : String) (i : UtcInstant) : Prop :=
  ∃ x, Denotes s.toList x [] ∧
    (∀ s' j, parseInstant s' = .ok j → ∃ y rest, Denotes s'.toList y rest ∧
      (i < j ↔ x < y) ∧ (i = j ↔ x = y) ∧ (j < i ↔ y < x)) ∧
    ∀ n : ℤ, (i.key < toLex (n, []) ↔ x < n) ∧ (i.key = toLex (n, []) ↔ x = n) ∧
      (toLex (n, []) < i.key ↔ (n : ℚ) < x)

lemma last_of_denotes {cs : List Char} {x : ℚ} (h : Denotes cs x []) : cs.getLast? = some 'Z' := by
  obtain ⟨t, front, digits, -, -, -, rfl, -⟩ := h
  simp

/-- The text of an instant is exact unless a line feed follows it. -/
theorem exactInstant_iff (h : parseInstant s = .ok i) :
    ExactInstant s i ↔ s.toList.getLast? ≠ some '\n' := by
  constructor
  · rintro ⟨x, hx, -⟩
    rw [last_of_denotes hx]
    decide
  · intro hlast
    obtain ⟨rest, hx, rfl | rfl⟩ := value_of_parseInstant h
    · refine ⟨i.value, hx, fun s' j hj => ?_, fun n => ?_⟩
      · obtain ⟨rest, hy, -⟩ := value_of_parseInstant hj
        refine ⟨j.value, rest, hy, ?_, ?_, ?_⟩
        · exact (strictMonoOn_keyValue.lt_iff_lt (normal_key i) (normal_key j)).symm
        · rw [← UtcInstant.key_injective.eq_iff]
          exact (strictMonoOn_keyValue.injOn.eq_iff (normal_key i) (normal_key j)).symm
        · exact (strictMonoOn_keyValue.lt_iff_lt (normal_key j) (normal_key i)).symm
      · have hn : keyValue (toLex (n, [])) = n := by simp [keyValue, fraction]
        rw [← hn]
        exact ⟨(strictMonoOn_keyValue.lt_iff_lt (normal_key i) (normal_second n)).symm,
          (strictMonoOn_keyValue.injOn.eq_iff (normal_key i) (normal_second n)).symm,
          (strictMonoOn_keyValue.lt_iff_lt (normal_second n) (normal_key i)).symm⟩
    · obtain ⟨t, front, digits, -, -, -, hcs, -⟩ := hx
      rw [hcs] at hlast
      simp at hlast

theorem exactInstant_week : ∃ i, parseInstant "2026-01-12T00:00:02.250Z" = .ok i ∧
    ExactInstant "2026-01-12T00:00:02.250Z" i := by
  have hsome : (parseInstant "2026-01-12T00:00:02.250Z").toOption.isSome = true := by decide +kernel
  cases h : parseInstant "2026-01-12T00:00:02.250Z" with
  | error e => rw [h] at hsome; cases hsome
  | ok i => exact ⟨i, rfl, (exactInstant_iff h).mpr (by decide +kernel)⟩

/-- A line feed may follow the instant. -/
theorem not_exactInstant : ¬ ∀ s i, parseInstant s = .ok i → ExactInstant s i := by
  intro h
  have hsome : (parseInstant "2026-01-12T00:00:02Z\n").toOption.isSome = true := by decide +kernel
  cases hparse : parseInstant "2026-01-12T00:00:02Z\n" with
  | error e => rw [hparse] at hsome; cases hsome
  | ok i =>
    obtain ⟨x, hx, -⟩ := h _ i hparse
    exact absurd (last_of_denotes hx) (by decide +kernel)

end MarketData
end GuvFX
