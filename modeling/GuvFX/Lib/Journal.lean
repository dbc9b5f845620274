/-
# Journals of moves

A journal records the moves of something that has one state at a time: its rows are numbered from one
on, each begins in the state where the row before it ended, the first in the state of the beginning,
and the last ends in the state of now.  The file keeps these facts together and shows that they
survive the writing of the next row.
-/
import Mathlib.Data.List.Chain
import Mathlib.Data.List.Range

namespace GuvFX

variable {ρ σ : Type*}

/-- The rows are numbered from one on and are the way from the state `s₀` to the state `s`. -/
structure Journal (number : ρ → ℕ) (source target : ρ → σ) (s₀ s : σ) (rows : List ρ) : Prop where
  numbered : rows.map number = List.range' 1 rows.length
  linked : rows.IsChain fun r r' => target r = source r'
  starts : ∀ r ∈ rows.head?, source r = s₀
  ends : (rows.getLast?.map target).getD s₀ = s

namespace Journal

variable {number : ρ → ℕ} {source target : ρ → σ} {s₀ s : σ} {rows : List ρ}

/-- Nothing has moved yet. -/
lemma nil : Journal number source target s₀ s₀ ([] : List ρ) :=
  ⟨rfl, List.isChain_nil, by simp, rfl⟩

lemma concat (h : Journal number source target s₀ s rows) {r : ρ}
    (hnumber : number r = rows.length + 1) (hsource : source r = s) :
    Journal number source target s₀ (target r) (rows ++ [r]) := by
  obtain ⟨hnum, hlink, hstart, hend⟩ := h
  refine ⟨?_, ?_, ?_, by simp⟩
  · rw [List.map_append, hnum, List.length_append, List.length_singleton, List.range'_concat]
    simp [hnumber, Nat.add_comm]
  · refine List.isChain_append.mpr ⟨hlink, List.isChain_singleton r, ?_⟩
    intro x hx y hy
    rw [Option.mem_def] at hx
    rw [hx] at hend
    obtain rfl : r = y := by simpa using hy
    exact hend.trans hsource.symm
  · cases rows with
    | nil =>
      intro x hx
      obtain rfl : r = x := by simpa using hx
      exact hsource.trans hend.symm
    | cons x xs => exact hstart

end Journal
end GuvFX
