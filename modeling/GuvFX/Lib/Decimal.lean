/-
# Decimal columns

A decimal column of a store keeps a fixed number of digits after the point; a value with more
digits is rounded to the nearest one that fits, halves away from zero.  The file says what is
used of this rounding: its error, that it is monotone, and that it does not move a value across
a value of the column.
-/
import Mathlib.Algebra.Order.Field.Basic
import Mathlib.Algebra.Order.Round
import Mathlib.Data.Rat.Floor
import Mathlib.Tactic.FieldSimp
import Mathlib.Tactic.Linarith
import Mathlib.Tactic.Positivity
import Mathlib.Tactic.Ring

namespace GuvFX
namespace Decimal

/-- The value of a column with `digits` digits after the point that is nearest to `x`. -/
def quantize (digits : ℕ) (x : ℚ) : ℚ :=
  if 0 ≤ x then (round (x * 10 ^ digits) : ℚ) / 10 ^ digits
  else -((round (-x * 10 ^ digits) : ℚ) / 10 ^ digits)

/-- The value with `digits` digits after the point that is nearest to `x`, halves to the even one. -/
def quantizeEven (digits : ℕ) (x : ℚ) : ℚ :=
  let y := x * 10 ^ digits
  let rest := y - ⌊y⌋
  (if rest < 1 / 2 ∨ rest = 1 / 2 ∧ ⌊y⌋ % 2 = 0 then ⌊y⌋ else ⌊y⌋ + 1) / 10 ^ digits

/-- The values that a column with `digits` digits can hold. -/
def OnGrid (digits : ℕ) (x : ℚ) : Prop := ∃ k : ℤ, x = k / 10 ^ digits

variable {digits : ℕ} {x y g e : ℚ}

lemma ten_pow_pos (digits : ℕ) : (0 : ℚ) < 10 ^ digits := by positivity

/-- The nearest value of the column is not far below. -/
lemma exists_quantizeEven (digits : ℕ) (x : ℚ) :
    ∃ k : ℤ, quantizeEven digits x = k / 10 ^ digits ∧ x * 10 ^ digits ≤ k + 1 / 2 := by
  unfold quantizeEven
  generalize x * 10 ^ digits = y
  dsimp only
  split_ifs with hround
  · refine ⟨⌊y⌋, rfl, ?_⟩
    rcases hround with hlt | ⟨heq, -⟩
    · linarith
    · linarith
  · refine ⟨⌊y⌋ + 1, by push_cast; rfl, ?_⟩
    have hfloor := Int.lt_floor_add_one y
    push_cast
    linarith

lemma onGrid_quantize (digits : ℕ) (x : ℚ) : OnGrid digits (quantize digits x) := by
  unfold quantize
  split_ifs
  · exact ⟨round (x * 10 ^ digits), rfl⟩
  · refine ⟨-round (-x * 10 ^ digits), ?_⟩
    push_cast
    ring

lemma OnGrid.add (hx : OnGrid digits x) (hy : OnGrid digits y) : OnGrid digits (x + y) := by
  obtain ⟨k, rfl⟩ := hx
  obtain ⟨l, rfl⟩ := hy
  refine ⟨k + l, ?_⟩
  push_cast
  ring

lemma OnGrid.neg (hx : OnGrid digits x) : OnGrid digits (-x) := by
  obtain ⟨k, rfl⟩ := hx
  refine ⟨-k, ?_⟩
  push_cast
  ring

lemma OnGrid.sub (hx : OnGrid digits x) (hy : OnGrid digits y) : OnGrid digits (x - y) := by
  rw [sub_eq_add_neg]
  exact hx.add hy.neg

lemma onGrid_zero : OnGrid digits 0 := ⟨0, by simp⟩

lemma quantize_of_nonneg (hx : 0 ≤ x) :
    quantize digits x = (round (x * 10 ^ digits) : ℚ) / 10 ^ digits := if_pos hx

/-- Rounding commutes with the sign. -/
lemma quantize_neg (digits : ℕ) (x : ℚ) : quantize digits (-x) = -quantize digits x := by
  unfold quantize
  rcases lt_trichotomy x 0 with hx | rfl | hx
  · rw [if_pos (by linarith), if_neg (by linarith), neg_neg]
  · simp
  · rw [if_neg (by linarith), if_pos (by linarith), neg_neg]

/-- A value of the column is not changed. -/
lemma quantize_of_onGrid (h : OnGrid digits x) : quantize digits x = x := by
  obtain ⟨k, rfl⟩ := h
  have hpow := (ten_pow_pos digits).ne'
  have hk : (k : ℚ) / 10 ^ digits * 10 ^ digits = k := div_mul_cancel₀ _ hpow
  have hk' : -((k : ℚ) / 10 ^ digits) * 10 ^ digits = ((-k : ℤ) : ℚ) := by
    rw [neg_mul, hk]
    push_cast
    rfl
  unfold quantize
  split_ifs
  · rw [hk, round_intCast]
  · rw [hk', round_intCast]
    push_cast
    ring

lemma abs_quantize_sub_le (digits : ℕ) (x : ℚ) :
    |quantize digits x - x| ≤ 1 / 2 / 10 ^ digits := by
  have hpow := ten_pow_pos digits
  -- the case of a value that is not negative; the other one follows by the sign
  have hnonneg : ∀ y : ℚ, 0 ≤ y → |quantize digits y - y| ≤ 1 / 2 / 10 ^ digits := by
    intro y hy
    rw [quantize_of_nonneg hy]
    have hdiff : (round (y * 10 ^ digits) : ℚ) / 10 ^ digits - y
        = (round (y * 10 ^ digits) - y * 10 ^ digits) / 10 ^ digits := by
      field_simp
    rw [hdiff, abs_div, abs_of_pos hpow]
    have hround := abs_sub_round (y * 10 ^ digits)
    rw [abs_sub_comm] at hround
    exact div_le_div_of_nonneg_right hround hpow.le
  rcases le_total 0 x with hx | hx
  · exact hnonneg x hx
  · have hneg := hnonneg (-x) (by linarith)
    rw [quantize_neg] at hneg
    calc |quantize digits x - x| = |(-quantize digits x) - -x| := by
          rw [← abs_neg]; congr 1; ring
      _ ≤ 1 / 2 / 10 ^ digits := hneg

/-- Rounding is monotone. -/
lemma quantize_mono (h : x ≤ y) : quantize digits x ≤ quantize digits y := by
  have hpow := ten_pow_pos digits
  have hnonneg : ∀ {a b : ℚ}, 0 ≤ a → a ≤ b → quantize digits a ≤ quantize digits b := by
    intro a b ha hab
    rw [quantize_of_nonneg ha, quantize_of_nonneg (ha.trans hab)]
    refine div_le_div_of_nonneg_right ?_ hpow.le
    have hround : round (a * 10 ^ digits) ≤ round (b * 10 ^ digits) := by
      rw [round_eq, round_eq]
      refine Int.floor_mono ?_
      have hmul := mul_le_mul_of_nonneg_right hab hpow.le
      linarith
    exact_mod_cast hround
  have hzero : quantize digits 0 = 0 := quantize_of_onGrid onGrid_zero
  rcases le_total 0 x with hx | hx
  · exact hnonneg hx h
  · rcases le_total 0 y with hy | hy
    · have hxz : quantize digits x ≤ 0 := by
        have hneg := hnonneg le_rfl (show (0 : ℚ) ≤ -x by linarith)
        rw [hzero, quantize_neg] at hneg
        linarith
      have hzy : 0 ≤ quantize digits y := by
        have hpos := hnonneg le_rfl hy
        rwa [hzero] at hpos
      exact hxz.trans hzy
    · have hneg := hnonneg (show (0 : ℚ) ≤ -y by linarith) (show -y ≤ -x by linarith)
      rw [quantize_neg, quantize_neg] at hneg
      linarith

/-- **Rounding does not leave a neighbourhood whose bounds the column can hold.** -/
lemma abs_quantize_sub_le_of_onGrid (hg : OnGrid digits g) (he : OnGrid digits e)
    (h : |x - g| ≤ e) : |quantize digits x - g| ≤ e := by
  obtain ⟨hlow, hhigh⟩ := abs_le.mp h
  have hup : quantize digits x ≤ g + e := by
    have hmono : quantize digits x ≤ quantize digits (g + e) := quantize_mono (by linarith)
    rwa [quantize_of_onGrid (hg.add he)] at hmono
  have hdown : g - e ≤ quantize digits x := by
    have hmono : quantize digits (g - e) ≤ quantize digits x := quantize_mono (by linarith)
    rwa [quantize_of_onGrid (hg.sub he)] at hmono
  rw [abs_le]
  exact ⟨by linarith, by linarith⟩

end Decimal
end GuvFX
