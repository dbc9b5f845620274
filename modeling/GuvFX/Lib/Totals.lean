/-
# Totals over the rows of a table

A total adds up what the rows of a table are worth.  Two totals are compared row by row, over tables
that need not have the same keys: a key that is not in use is worth nothing.
-/
import Mathlib.Algebra.BigOperators.Group.Finset.Basic
import Mathlib.Algebra.Order.BigOperators.Group.Finset
import GuvFX.Lib.Table

namespace GuvFX
namespace Table

variable {ρ σ M : Type*}

section Totals

variable [AddCommMonoid M]

def total (t : Table ρ) (w : ℕ → ρ → M) : M := (t.rows.map fun e => w e.1 e.2).sum

def worth (t : Table ρ) (w : ℕ → ρ → M) (k : ℕ) : M := (t.get k).elim 0 (w k)

lemma worth_of_get {t : Table ρ} {k : ℕ} {v : ρ} (h : t.get k = some v) (w : ℕ → ρ → M) :
    t.worth w k = w k v := by
  rw [worth, h]
  rfl

lemma worth_of_get_none {t : Table ρ} {k : ℕ} (h : t.get k = none) (w : ℕ → ρ → M) :
    t.worth w k = 0 := by
  rw [worth, h]
  rfl

lemma total_eq_sum (t : Table ρ) (w : ℕ → ρ → M) {s : Finset ℕ} (hs : ∀ k ∈ t.keys, k ∈ s) :
    t.total w = ∑ k ∈ s, t.worth w k := by
  have hkeys : t.total w = ∑ k ∈ t.keys.toFinset, t.worth w k := by
    have hnodup : t.keys.Nodup := t.nodup
    rw [List.sum_toFinset _ hnodup, keys, List.map_map, total]
    refine congrArg List.sum (List.map_congr_left fun e he => ?_)
    exact (worth_of_get (get_eq_some_iff.mpr he) w).symm
  rw [hkeys]
  refine Finset.sum_subset (fun k hk => hs k (List.mem_toFinset.mp hk)) fun k _ hk => ?_
  rw [List.mem_toFinset] at hk
  exact worth_of_get_none (get_eq_none_iff.mpr hk) w

lemma total_add (t : Table ρ) (w w' : ℕ → ρ → M) :
    t.total (fun k v => w k v + w' k v) = t.total w + t.total w' :=
  List.sum_map_add

lemma sum_filter (t : Table ρ) (p : ℕ → ρ → Bool) (w : ℕ → ρ → M) :
    ((t.filter p).map fun e => w e.1 e.2).sum = t.total fun k v => if p k v then w k v else 0 := by
  rw [filter, total]
  induction t.rows with
  | nil => rfl
  | cons e rows ih =>
    rw [List.map_cons, List.sum_cons, ← ih, List.filter_cons]
    cases p e.1 e.2 <;> simp

end Totals

section Comparison

variable [AddCommMonoid M] [PartialOrder M] [IsOrderedAddMonoid M] {t : Table ρ} {t' : Table σ}
  {w : ℕ → ρ → M} {w' : ℕ → σ → M}

lemma exists_keys (t : Table ρ) (t' : Table σ) (r : ℕ) :
    ∃ s : Finset ℕ, r ∈ s ∧ (∀ k ∈ t.keys, k ∈ s) ∧ ∀ k ∈ t'.keys, k ∈ s := by
  refine ⟨(r :: (t.keys ++ t'.keys)).toFinset, ?_, ?_, ?_⟩
  · simp
  · intro k hk
    simp [hk]
  · intro k hk
    simp [hk]

/-- Two totals of which one may be more in one row. -/
theorem total_le_total_add (r : ℕ) {c : M} (hr : t'.worth w' r ≤ t.worth w r + c)
    (h : ∀ k, k ≠ r → t'.worth w' k ≤ t.worth w k) : t'.total w' ≤ t.total w + c := by
  obtain ⟨s, hrs, hs, hs'⟩ := exists_keys t t' r
  rw [total_eq_sum t w hs, total_eq_sum t' w' hs', ← Finset.add_sum_erase s _ hrs,
    ← Finset.add_sum_erase s (t.worth w) hrs]
  have hrest : ∑ k ∈ s.erase r, t'.worth w' k ≤ ∑ k ∈ s.erase r, t.worth w k :=
    Finset.sum_le_sum fun k hk => h k (Finset.ne_of_mem_erase hk)
  calc t'.worth w' r + ∑ k ∈ s.erase r, t'.worth w' k
      ≤ (t.worth w r + c) + ∑ k ∈ s.erase r, t.worth w k := add_le_add hr hrest
    _ = (t.worth w r + ∑ k ∈ s.erase r, t.worth w k) + c := add_right_comm ..

/-- Two totals of which one is not more in any row. -/
theorem total_le_total (h : ∀ k, t'.worth w' k ≤ t.worth w k) : t'.total w' ≤ t.total w := by
  have hle : t'.total w' ≤ t.total w + 0 :=
    total_le_total_add 0 (by rw [add_zero]; exact h 0) fun k _ => h k
  rwa [add_zero] at hle

end Comparison

end Table
end GuvFX
