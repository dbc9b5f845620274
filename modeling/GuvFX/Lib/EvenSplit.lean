/-
# Even splits

A number of units is shared among several parts as evenly as it goes: each part gets the quotient, and
the first ones one unit more as long as the remainder lasts.  The parts are the only ones that do not
grow along the list and differ by at most one unit.
-/
import Mathlib.Algebra.BigOperators.Group.List.Basic
import Mathlib.Tactic.Linarith
import Mathlib.Tactic.Ring

namespace GuvFX
namespace EvenSplit

variable {u n m r : ℕ} {ks : List ℕ}

def shares (u n : ℕ) : List ℕ := (List.range n).map fun i => u / n + if i < u % n then 1 else 0

structure IsEven (ks : List ℕ) : Prop where
  sorted : ks.Pairwise (· ≥ ·)
  spread : ∀ j ∈ ks, ∀ k ∈ ks, j ≤ k + 1

@[simp] lemma length_shares : (shares u n).length = n := by simp [shares]

lemma shares_eq (hr : r < n) :
    shares (n * m + r) n = List.replicate r (m + 1) ++ List.replicate (n - r) m := by
  have hdiv : (n * m + r) / n = m := by
    rw [Nat.mul_add_div (by omega), Nat.div_eq_of_lt hr, Nat.add_zero]
  have hmod : (n * m + r) % n = r := by rw [Nat.mul_add_mod, Nat.mod_eq_of_lt hr]
  refine List.ext_getElem (by simp [shares]; omega) fun i hi hi' => ?_
  rw [List.getElem_append]
  simp only [shares, hdiv, hmod, List.getElem_map, List.getElem_range, List.length_replicate,
    List.getElem_replicate]
  split <;> rfl

lemma isEven_replicate : IsEven (List.replicate r (m + 1) ++ List.replicate n m) := by
  refine ⟨?_, fun j hj k hk => ?_⟩
  · rw [List.pairwise_append]
    refine ⟨List.pairwise_replicate.mpr (.inr le_rfl), List.pairwise_replicate.mpr (.inr le_rfl), ?_⟩
    intro j hj k hk
    rw [List.eq_of_mem_replicate hj, List.eq_of_mem_replicate hk]
    omega
  · simp only [List.mem_append, List.mem_replicate] at hj hk
    omega

lemma sum_replicate (hr : r < n) :
    (List.replicate r (m + 1) ++ List.replicate (n - r) m).sum = n * m + r := by
  obtain ⟨d, rfl⟩ := Nat.exists_eq_add_of_lt hr
  simp only [List.sum_append, List.sum_replicate_nat, show r + d + 1 - r = d + 1 by omega]
  ring

/-- An even list is one unit more in front, and the same behind. -/
lemma IsEven.exists_eq (h : IsEven ks) (hne : ks ≠ []) : ∃ m r, r < ks.length ∧
    ks = List.replicate r (m + 1) ++ List.replicate (ks.length - r) m := by
  induction ks with
  | nil => exact absurd rfl hne
  | cons k ks ih =>
    rcases eq_or_ne ks [] with rfl | hks
    · exact ⟨k, 0, by simp, by simp⟩
    obtain ⟨m, r, hr, heq⟩ := ih ⟨h.sorted.of_cons, fun i hi j hj =>
      h.spread i (List.mem_cons_of_mem k hi) j (List.mem_cons_of_mem k hj)⟩ hks
    have hmem : m ∈ ks := by
      rw [heq]
      simp [List.mem_replicate, show ks.length - r ≠ 0 by omega]
    have hle := (List.pairwise_cons.mp h.sorted).1
    have hspread := h.spread k List.mem_cons_self m (List.mem_cons_of_mem k hmem)
    have hlow := hle m hmem
    have hcases : k = m + 1 ∨ k = m ∧ r = 0 := by
      rcases Nat.eq_zero_or_pos r with hzero | hpos
      · omega
      · have hfirst : m + 1 ∈ ks := by
          rw [heq]
          simp [List.mem_replicate, hpos.ne']
        have := hle (m + 1) hfirst
        omega
    rcases hcases with rfl | ⟨rfl, rfl⟩
    · refine ⟨m, r + 1, by simpa using hr, ?_⟩
      rw [List.replicate_succ, List.cons_append, List.length_cons, Nat.add_sub_add_right, ← heq]
    · refine ⟨k, 0, by simp, ?_⟩
      rw [List.length_cons, Nat.sub_zero, List.replicate_succ, List.replicate_zero, List.nil_append]
      simpa using heq

lemma exists_shares_eq (hn : 0 < n) (u : ℕ) : ∃ m r, r < n ∧ u = n * m + r ∧
    shares u n = List.replicate r (m + 1) ++ List.replicate (n - r) m := by
  have hu := (Nat.div_add_mod u n).symm
  have hr := Nat.mod_lt u hn
  refine ⟨u / n, u % n, hr, hu, ?_⟩
  rw [← shares_eq hr, ← hu]

lemma sum_shares (hn : 0 < n) (u : ℕ) : (shares u n).sum = u := by
  obtain ⟨m, r, hr, hu, heq⟩ := exists_shares_eq hn u
  rw [heq, sum_replicate hr, hu]

lemma isEven_shares (hn : 0 < n) (u : ℕ) : IsEven (shares u n) := by
  obtain ⟨m, r, -, -, heq⟩ := exists_shares_eq hn u
  exact heq ▸ isEven_replicate

theorem IsEven.eq_shares (h : IsEven ks) (hne : ks ≠ []) : ks = shares ks.sum ks.length := by
  obtain ⟨m, r, hr, heq⟩ := h.exists_eq hne
  have hsum : ks.sum = ks.length * m + r := (congrArg List.sum heq).trans (sum_replicate hr)
  rw [hsum, shares_eq hr, ← heq]

end EvenSplit
end GuvFX
