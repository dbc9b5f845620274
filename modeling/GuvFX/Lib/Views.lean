/-
# Operations that are confined to their owners

A state is shared by several owners, and each of them has a view of it: what is left of the state when the
rows of the others are taken away.  An operation is confined when it leaves the views of the others alone,
and does to the view of its owner what it does to the state.  After a run of such operations the view of an
owner is what the owner's own operations make of it.
-/
import Mathlib.Data.List.Basic
import Mathlib.Tactic.Lemma

namespace GuvFX
namespace Views

variable {σ α ι : Type*} [DecidableEq ι]

/-- Each operation reads and writes what belongs to its owner. -/
structure Confined (view : ι → σ → σ) (owner : α → ι) (step : σ → α → σ) : Prop where
  others : ∀ s a i, owner a ≠ i → view i (step s a) = view i s
  own : ∀ s a, view (owner a) (step s a) = step (view (owner a) s) a

variable {view : ι → σ → σ} {owner : α → ι} {step : σ → α → σ}

/-- The view of an owner after a run is that of the owner's own operations. -/
theorem Confined.view_foldl (h : Confined view owner step) (i : ι) (s : σ) (as : List α) :
    view i (as.foldl step s) = (as.filter fun a => owner a = i).foldl step (view i s) := by
  induction as generalizing s with
  | nil => rfl
  | cons a as ih =>
    rw [List.foldl_cons, ih]
    by_cases ha : owner a = i
    · subst ha
      rw [h.own, List.filter_cons_of_pos (by simp), List.foldl_cons]
    · rw [h.others s a i ha, List.filter_cons_of_neg (by simpa using ha)]

/-- Two runs look the same to an owner whose operations are the same in both of them. -/
theorem Confined.view_congr {step' : σ → α → σ} (h : Confined view owner step)
    (h' : Confined view owner step') {i : ι} {s s' : σ} {as as' : List α}
    (hstep : ∀ s, ∀ a ∈ as, owner a = i → step s a = step' s a) (hs : view i s = view i s')
    (has : (as.filter fun a => owner a = i) = as'.filter fun a => owner a = i) :
    view i (as.foldl step s) = view i (as'.foldl step' s') := by
  rw [h.view_foldl, h'.view_foldl, ← has, ← hs]
  have hown : ∀ s, ∀ a ∈ as.filter fun a => owner a = i, step s a = step' s a := fun s a ha =>
    hstep s a (List.mem_filter.mp ha).1 (of_decide_eq_true (List.mem_filter.mp ha).2)
  generalize (as.filter fun a => owner a = i) = own at hown
  generalize view i s = t
  induction own generalizing t with
  | nil => rfl
  | cons a own ih =>
    rw [List.foldl_cons, List.foldl_cons, hown t a List.mem_cons_self]
    exact ih (fun s b hb => hown s b (List.mem_cons_of_mem a hb)) _

end Views
end GuvFX
