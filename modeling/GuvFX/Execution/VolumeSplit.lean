/-
# The split of a volume

The volume that a signal asks for is shared evenly among the legs of its plan, in steps of the lot and
within the caps.  The legs are the only even ones that leave less than a step of the volume unused, and
without such legs the volume is refused.
-/
import GuvFX.Execution.AutoRouter
import GuvFX.Lib.EvenSplit

namespace GuvFX
namespace AutoRouter

open EvenSplit

variable {total maxPerLeg maxTotal cap : ℚ} {n u : ℕ} {legs : List ℚ}

/-- The volume that is shared, within the caps. -/
def effectiveTotal (total : ℚ) (n : ℕ) (maxPerLeg maxTotal : ℚ) : ℚ :=
  min total (min (n * maxPerLeg) maxTotal)

/-- Even legs of whole steps that leave less than a step unused. -/
structure SplitsEvenly (cap maxPerLeg : ℚ) (n : ℕ) (legs : List ℚ) : Prop where
  length : legs.length = n
  sorted : legs.Pairwise (· ≥ ·)
  spread : ∀ l ∈ legs, ∀ l' ∈ legs, l ≤ l' + lotStep
  step : ∀ l ∈ legs, ∃ k : ℕ, 0 < k ∧ l = k * lotStep
  within : ∀ l ∈ legs, l ≤ maxPerLeg
  sum_le : legs.sum ≤ cap
  lt_sum : cap < legs.sum + lotStep

def lots (ks : List ℕ) : List ℚ := ks.map fun k : ℕ => k * lotStep

lemma lotStep_pos : 0 < lotStep := by norm_num [lotStep]

lemma sum_lots (ks : List ℕ) : (lots ks).sum = ks.sum * lotStep := by
  induction ks with
  | nil => simp [lots]
  | cons k ks ih =>
    simp only [lots, List.map_cons, List.sum_cons, Nat.cast_add, add_mul] at ih ⊢
    rw [ih]

lemma le_lots_iff {j k : ℕ} : (j : ℚ) * lotStep ≤ k * lotStep ↔ j ≤ k := by
  rw [mul_le_mul_iff_of_pos_right lotStep_pos, Nat.cast_le]

/-- The steps that fit into the cap, if there are some. -/
lemma units_eq_iff (hu : 0 < u) :
    ⌊cap / lotStep⌋.toNat = u ↔ u * lotStep ≤ cap ∧ cap < u * lotStep + lotStep := by
  rw [show ⌊cap / lotStep⌋.toNat = u ↔ ⌊cap / lotStep⌋ = (u : ℤ) by omega, Int.floor_eq_iff,
    le_div_iff₀ lotStep_pos, div_lt_iff₀ lotStep_pos]
  push_cast
  rw [add_mul, one_mul]

lemma exists_lots (h : ∀ l ∈ legs, ∃ k : ℕ, 0 < k ∧ l = k * lotStep) :
    ∃ ks : List ℕ, legs = lots ks ∧ ∀ k ∈ ks, 0 < k := by
  induction legs with
  | nil => exact ⟨[], rfl, by simp⟩
  | cons l legs ih =>
    obtain ⟨k, hk, rfl⟩ := h l List.mem_cons_self
    obtain ⟨ks, rfl, hks⟩ := ih fun l hl => h l (List.mem_cons_of_mem _ hl)
    exact ⟨k :: ks, rfl, by simpa [hk] using hks⟩

lemma isEven_iff {ks : List ℕ} : IsEven ks ↔ (lots ks).Pairwise (· ≥ ·) ∧
    ∀ l ∈ lots ks, ∀ l' ∈ lots ks, l ≤ l' + lotStep := by
  have hstep (j k : ℕ) : (j : ℚ) * lotStep ≤ k * lotStep + lotStep ↔ j ≤ k + 1 := by
    rw [← le_lots_iff]
    push_cast
    rw [add_mul, one_mul]
  simp only [lots, List.pairwise_map, List.forall_mem_map, ge_iff_le, le_lots_iff, hstep]
  exact ⟨fun h => ⟨h.sorted, h.spread⟩, fun h => ⟨h.1, h.2⟩⟩

lemma splitsEvenly_iff (hn : 0 < n) : SplitsEvenly cap maxPerLeg n legs ↔
    ∃ u, ⌊cap / lotStep⌋.toNat = u ∧ n ≤ u ∧ legs = lots (shares u n) ∧ ∀ l ∈ legs, l ≤ maxPerLeg := by
  constructor
  · intro h
    obtain ⟨ks, rfl, hpos⟩ := exists_lots h.step
    have hlen : ks.length = n := by simpa [lots] using h.length
    have hle : n ≤ ks.sum := hlen ▸ List.length_le_sum_of_one_le ks hpos
    have hne : ks ≠ [] := by
      rintro rfl
      simp at hlen
      omega
    refine ⟨ks.sum, (units_eq_iff (by omega)).mpr ?_, hle, ?_, h.within⟩
    · rw [← sum_lots]
      exact ⟨h.sum_le, h.lt_sum⟩
    · rw [← hlen, ← (isEven_iff.mpr ⟨h.sorted, h.spread⟩).eq_shares hne]
  · rintro ⟨u, hu, hle, rfl, hwithin⟩
    obtain ⟨hsorted, hspread⟩ := isEven_iff.mp (isEven_shares hn u)
    obtain ⟨hsum, hlt⟩ := (units_eq_iff (by omega)).mp hu
    refine ⟨by simp [lots], hsorted, hspread, ?_, hwithin, ?_, ?_⟩
    · intro l hl
      obtain ⟨k, hk, rfl⟩ := List.mem_map.mp hl
      refine ⟨k, ?_, rfl⟩
      obtain ⟨i, -, rfl⟩ := List.mem_map.mp hk
      exact Nat.lt_of_lt_of_le (Nat.div_pos hle hn) (Nat.le_add_right _ _)
    all_goals rwa [sum_lots, sum_shares hn]

/-- **The legs of a volume.**  The split gives the even legs that exhaust the capped volume up to a step, and
gives none just when there are no such legs. -/
theorem splitVolume_eq_some_iff : splitVolume total n maxPerLeg maxTotal = some legs ↔
    (0 < n ∧ n ≤ maxPlanLegs ∧ 0 < total) ∧
      SplitsEvenly (effectiveTotal total n maxPerLeg maxTotal) maxPerLeg n legs := by
  have hshares : ∀ u : ℕ, ((List.range n).map fun i =>
      ((u / n + if i < u % n then 1 else 0 : ℕ) : ℚ) * lotStep) = lots (shares u n) := fun u => by
    rw [lots, shares, List.map_map]
    rfl
  by_cases hguard : n < 1 ∨ maxPlanLegs < n ∨ total ≤ 0
  · simp only [splitVolume, if_pos hguard, reduceCtorEq, false_iff, not_and]
    rintro ⟨hn, hmax, htotal⟩
    rcases hguard with h | h | h
    · omega
    · omega
    · exact absurd h htotal.not_ge
  · obtain ⟨hn, hmax, htotal⟩ : 0 < n ∧ n ≤ maxPlanLegs ∧ 0 < total := by
      simpa [not_or, Nat.pos_iff_ne_zero] using hguard
    simp only [splitVolume, if_neg hguard, hshares, hn, hmax, htotal, true_and, splitsEvenly_iff hn,
      effectiveTotal]
    generalize hu : ⌊min total (min (n * maxPerLeg) maxTotal) / lotStep⌋.toNat = u
    have hsum : n ≤ u → (lots (shares u n)).sum ≤ maxTotal := fun hle => by
      rw [sum_lots, sum_shares hn]
      exact ((units_eq_iff (by omega)).mp hu).1.trans ((min_le_right _ _).trans (min_le_right _ _))
    split_ifs with hfew hbad
    · refine iff_of_false (by simp) ?_
      rintro ⟨_, rfl, hle, -⟩
      omega
    · refine iff_of_false (by simp) ?_
      rintro ⟨_, rfl, hle, rfl, hwithin⟩
      rcases hbad with hany | hmore
      · obtain ⟨l, hl, hlt⟩ := List.any_eq_true.mp hany
        exact (hwithin l hl).not_gt (of_decide_eq_true hlt)
      · exact (hsum hle).not_gt hmore
    · have hwithin : ∀ l ∈ lots (shares u n), l ≤ maxPerLeg := by
        simpa using (not_or.mp hbad).1
      constructor
      · rintro ⟨⟩
        exact ⟨u, rfl, not_lt.mp hfew, rfl, hwithin⟩
      · rintro ⟨_, rfl, -, rfl, -⟩
        rfl

end AutoRouter
end GuvFX
