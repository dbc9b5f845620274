/-
# Histories of a lease

Parties claim a lease one after the other, each under a token of its own; a party that has
claimed begins its work, and commits it if it still holds the lease.  The file speaks of the
history of these three moments only.  A history is fenced when every commit is made by the party
that claimed last, after it began and before anyone else committed; the two guarantees of a lease
follow from this, whatever clock decides when a claim succeeds.
-/
import Mathlib.Data.List.Nodup

namespace GuvFX
namespace Lease

inductive Moment (τ : Type*) where
  | claimed (t : τ)
  | began (t : τ)
  | committed (t : τ)
  deriving DecidableEq, Repr

variable {τ : Type*}

def Moment.claim : Moment τ → Option τ
  | .claimed t => some t
  | _ => none

def claims (h : List (Moment τ)) : List τ := h.filterMap Moment.claim

/-- Nothing but beginnings. -/
def Quiet (h : List (Moment τ)) : Prop := ∀ m ∈ h, ∃ u, m = .began u

/-- The token `t` was claimed last, and nothing has been committed since. -/
def Holds (h : List (Moment τ)) (t : τ) : Prop :=
  ∃ before since, h = before ++ .claimed t :: since ∧ Quiet since

/-- The token `t` was claimed last, its party has begun since, and nothing has been committed. -/
def Began (h : List (Moment τ)) (t : τ) : Prop :=
  ∃ before since, h = before ++ .claimed t :: since ∧ Quiet since ∧ .began t ∈ since

/-- Every commit is made by the party that claimed last, after it began. -/
def Fenced (h : List (Moment τ)) : Prop :=
  ∀ before t after, h = before ++ .committed t :: after → Began before t

variable {h : List (Moment τ)} {s t u : τ}

/-! ### How a history grows -/

lemma claims_concat_claimed : claims (h ++ [.claimed t]) = claims h ++ [t] := by
  simp [claims, Moment.claim]

lemma claims_concat_began : claims (h ++ [.began t]) = claims h := by
  simp [claims, Moment.claim]

lemma claims_concat_committed : claims (h ++ [.committed t]) = claims h := by
  simp [claims, Moment.claim]

lemma Quiet.concat (hq : Quiet h) (u : τ) : Quiet (h ++ [.began u]) := by
  intro m hm
  rcases List.mem_append.mp hm with hm | hm
  · exact hq m hm
  · exact ⟨u, List.mem_singleton.mp hm⟩

lemma holds_claimed (h : List (Moment τ)) (t : τ) : Holds (h ++ [.claimed t]) t :=
  ⟨h, [], rfl, by simp [Quiet]⟩

lemma Holds.began (hh : Holds h t) (u : τ) : Holds (h ++ [.began u]) t := by
  obtain ⟨before, since, rfl, hq⟩ := hh
  exact ⟨before, since ++ [.began u], by simp, hq.concat u⟩

lemma Holds.began_self (hh : Holds h t) : Began (h ++ [.began t]) t := by
  obtain ⟨before, since, rfl, hq⟩ := hh
  exact ⟨before, since ++ [.began t], by simp, hq.concat t, by simp⟩

lemma Began.began (hb : Began h t) (u : τ) : Began (h ++ [.began u]) t := by
  obtain ⟨before, since, rfl, hq, hmem⟩ := hb
  exact ⟨before, since ++ [.began u], by simp, hq.concat u, List.mem_append_left _ hmem⟩

lemma fenced_nil : Fenced ([] : List (Moment τ)) := by
  intro before t after h
  simp at h

lemma Fenced.concat {m : Moment τ} (hf : Fenced h) (hm : ∀ t, m = .committed t → Began h t) :
    Fenced (h ++ [m]) := by
  intro before t after heq
  rcases List.eq_nil_or_concat after with rfl | ⟨after', m', rfl⟩
  · -- the new moment is the commit
    obtain ⟨rfl, hlast⟩ := List.append_inj' heq rfl
    exact hm t (List.singleton_inj.mp hlast)
  · have hcons : h ++ [m] = (before ++ .committed t :: after') ++ [m'] := by simp [heq]
    obtain ⟨rfl, -⟩ := List.append_inj' hcons rfl
    exact hf before t after' rfl

/-! ### The two guarantees -/

/-- **Of two commits, the later one was begun after the earlier one.** -/
theorem Fenced.began_between {before mid after : List (Moment τ)} (hf : Fenced h)
    (heq : h = before ++ .committed s :: mid ++ .committed t :: after) : .began t ∈ mid := by
  obtain ⟨a, since, hsplit, hq, hmem⟩ := hf _ t after heq
  -- the claim of `t` lies after the commit of `s`, since nothing was committed since that claim
  rcases List.append_eq_append_iff.mp hsplit with ⟨c, rfl, hc⟩ | ⟨c, rfl, hc⟩
  · cases c with
    | nil => simp at hc
    | cons m c =>
      obtain ⟨rfl, rfl⟩ := List.cons.inj hc
      simp [hmem]
  · cases c with
    | nil => simp at hc
    | cons m c =>
      obtain ⟨-, rfl⟩ := List.cons.inj hc
      obtain ⟨u, hu⟩ := hq (.committed s) (by simp)
      cases hu

/-- **A party whose lease was taken over does not commit.**  The tokens are distinct. -/
theorem Fenced.not_committed_after_takeover {before mid after : List (Moment τ)} (hf : Fenced h)
    (hnodup : (claims h).Nodup)
    (heq : h = before ++ .claimed s :: mid ++ .claimed t :: after) : .committed s ∉ after := by
  intro hmem
  obtain ⟨p, q, rfl⟩ := List.append_of_mem hmem
  have heq' : h = (before ++ .claimed s :: mid ++ .claimed t :: p) ++ .committed s :: q := by
    simp [heq]
  obtain ⟨a, since, hsplit, hq, -⟩ := hf _ s q heq'
  -- a second claim of `s` is not possible
  have htwice : ∀ x y z : List (Moment τ), h ≠ x ++ .claimed s :: y ++ .claimed s :: z := by
    rintro x y z rfl
    simp [claims, Moment.claim, List.nodup_append] at hnodup
  rcases List.append_eq_append_iff.mp hsplit with ⟨c, rfl, hc⟩ | ⟨c, hc', hc⟩
  · refine htwice before (mid ++ c) (since ++ .committed s :: q) ?_
    rw [heq', hsplit]
    simp
  · cases c with
    | nil =>
      obtain ⟨hst, -⟩ := List.cons.inj hc
      obtain rfl : s = t := Moment.claimed.inj hst
      exact htwice before mid _ heq
    | cons m c =>
      obtain ⟨-, rfl⟩ := List.cons.inj hc
      obtain ⟨u, hu⟩ := hq (.claimed t) (by simp)
      cases hu

end Lease
end GuvFX
