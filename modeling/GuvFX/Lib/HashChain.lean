/-
# Chains of hashes

Each entry of a log carries the hash of the entry before it and its own, which is that of both its
content and the hash before it.  No two entries of a chain have the same hash before them: two that do
have predecessors that do, down to the first entry.

So entries that are copied from a chain form a chain only where they are its beginning.
-/
import Mathlib.Data.List.Infix
import Mathlib.Data.Set.Defs
import Mathlib.Tactic.Lemma

namespace GuvFX
namespace HashChain

variable {M D : Type*}

/-- An entry of a log, with the hash of the entry before it and its own. -/
structure Entry (M D : Type*) where
  content : M
  previous : D
  hash : D
  deriving DecidableEq

def Entry.Sealed (link : D → M → D) (x : Entry M D) : Prop := link x.previous x.content = x.hash

/-- Sealed entries, each with the hash of the one before it, after the hash `e`. -/
def Chained (link : D → M → D) : D → List (Entry M D) → Prop
  | _, [] => True
  | e, x :: xs => x.previous = e ∧ x.Sealed link ∧ Chained link x.hash xs

def lastHash (e : D) (xs : List (Entry M D)) : D := (xs.getLast?.map (·.hash)).getD e

variable {link : D → M → D} {e : D} {xs ys : List (Entry M D)}

lemma Chained.concat (h : Chained link e xs) (m : M) :
    Chained link e (xs ++ [⟨m, lastHash e xs, link (lastHash e xs) m⟩]) := by
  induction xs generalizing e with
  | nil => exact ⟨rfl, rfl, trivial⟩
  | cons x xs ih =>
    have hlast : lastHash e (x :: xs) = lastHash x.hash xs := by
      rw [lastHash, List.getLast?_cons]
      cases hxs : xs.getLast? <;> simp [lastHash, hxs]
    rw [hlast]
    exact ⟨h.1, h.2.1, ih h.2.2⟩

lemma Chained.of_prefix (h : Chained link e xs) (hys : ys <+: xs) : Chained link e ys := by
  induction ys generalizing e xs with
  | nil => trivial
  | cons y ys ih =>
    obtain ⟨zs, rfl⟩ := hys
    exact ⟨h.1, h.2.1, ih h.2.2 (List.prefix_append _ _)⟩

lemma Chained.previous_mem (h : Chained link e xs) {x : Entry M D} (hx : x ∈ xs) :
    x.previous ∈ e :: xs.map (·.hash) := by
  induction xs generalizing e with
  | nil => cases hx
  | cons y ys ih =>
    rcases List.mem_cons.mp hx with rfl | hx
    · exact h.1 ▸ List.mem_cons_self
    · exact List.mem_cons_of_mem _ (ih h.2.2 hx)

lemma Chained.sealed (h : Chained link e xs) {x : Entry M D} (hx : x ∈ xs) : x.Sealed link := by
  induction xs generalizing e with
  | nil => cases hx
  | cons y ys ih =>
    rcases List.mem_cons.mp hx with rfl | hx
    · exact h.2.1
    · exact ih h.2.2 hx

section CollisionFree

variable {S : Set D} (hlink : ∀ e ∈ S, ∀ m, link e m ∈ S)
include hlink

lemma Chained.previous_mem_set (h : Chained link e xs) (he : e ∈ S) {x : Entry M D} (hx : x ∈ xs) :
    x.previous ∈ S := by
  induction xs generalizing e with
  | nil => cases hx
  | cons y ys ih =>
    obtain ⟨rfl, hsealed, hys⟩ := h
    rcases List.mem_cons.mp hx with rfl | hx
    · exact he
    · exact ih hys (hsealed ▸ hlink _ he _) hx

/-- Entries of a chain that are chained themselves begin it. -/
theorem Chained.prefix
    (hinj : ∀ e ∈ S, ∀ e' ∈ S, ∀ m m', link e m = link e' m' → e = e' ∧ m = m')
    (hxs : Chained link e xs) (hys : Chained link e ys) (he : e ∈ S) (hnew : e ∉ xs.map (·.hash))
    (hsub : ∀ y ∈ ys, y ∈ xs) : ys <+: xs := by
  induction ys generalizing e xs with
  | nil => exact List.nil_prefix
  | cons y ys ih =>
    obtain ⟨rfl, hsealed, hys⟩ := hys
    cases xs with
    | nil => exact nomatch hsub y List.mem_cons_self
    | cons x xs =>
      obtain ⟨hx, hxsealed, hxs⟩ := hxs
      have hhash : x.hash ∈ S := hxsealed ▸ hlink _ (hx ▸ he) _
      -- an entry after another one has a hash before it that is not the first one
      have hhead : y = x := by
        rcases List.mem_cons.mp (hsub y List.mem_cons_self) with rfl | hmem
        · rfl
        · exact absurd (hxs.previous_mem hmem) hnew
      obtain rfl := hhead
      have hfresh : y.hash ∉ xs.map (·.hash) := by
        intro hmem
        obtain ⟨x, hx, heq⟩ := List.mem_map.mp hmem
        have hboth : link x.previous x.content = link y.previous y.content :=
          (hxs.sealed hx).trans (heq.trans hsealed.symm)
        have hprevious := (hinj _ (hxs.previous_mem_set hlink hhash hx) _ he _ _ hboth).1
        exact hnew (hprevious ▸ hxs.previous_mem hx)
      refine (List.prefix_cons_inj y).mpr (ih hxs hys hhash hfresh fun z hz => ?_)
      rcases List.mem_cons.mp (hsub z (List.mem_cons_of_mem _ hz)) with rfl | hmem
      · -- the first entry does not stand once more behind itself
        have hback : z.previous ∈ (z :: ys).map (·.hash) := hys.previous_mem hz
        obtain ⟨x, hx, heq⟩ := List.mem_map.mp hback
        exact absurd (heq ▸ List.mem_map_of_mem (hsub x hx)) hnew
      · exact hmem

end CollisionFree

end HashChain
end GuvFX
