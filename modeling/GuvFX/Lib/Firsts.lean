/-
# The first of each key

A list that may name the same thing several times is read once for each thing: an element is kept
when its key has not occurred before it, and an element without a key is always kept.  Where the
keys name the elements, the elements that are kept are those of the list, each once, so that two
lists of the same elements give the same ones up to their order.  Whatever is added up over them
does not depend on how often, and in which order, the elements were named.
-/
import Mathlib.Data.List.Nodup
import Mathlib.Data.List.Perm.Subperm

namespace GuvFX
namespace Firsts

variable {α κ : Type*} {key : α → Option κ}

def Keyed (key : α → Option κ) (l : List α) : Prop := ∀ a ∈ l, (key a).isSome

def Named (key : α → Option κ) (l : List α) : Prop := ∀ a ∈ l, ∀ b ∈ l, key a = key b → a = b

variable {l l' : List α}

lemma Keyed.mono (h : Keyed key l) (hsub : l' ⊆ l) : Keyed key l' :=
  fun a ha => h a (hsub ha)

lemma Named.mono (h : Named key l) (hsub : l' ⊆ l) : Named key l' :=
  fun a ha b hb => h a (hsub ha) b (hsub hb)

variable [DecidableEq κ]

/-- The elements whose key has not occurred, where the keys `seen` have. -/
def firstsFrom (key : α → Option κ) : List κ → List α → List α
  | _, [] => []
  | seen, a :: l =>
    match key a with
    | none => a :: firstsFrom key seen l
    | some k => if k ∈ seen then firstsFrom key seen l else a :: firstsFrom key (k :: seen) l

def firsts (key : α → Option κ) (l : List α) : List α := firstsFrom key [] l

example : firsts (fun n => if n = 0 then none else some (n % 2)) [1, 0, 3, 2, 0] = [1, 0, 2, 0] := by
  simp [firsts, firstsFrom]

lemma sublist_firstsFrom (seen : List κ) (l : List α) : (firstsFrom key seen l).Sublist l := by
  induction l generalizing seen with
  | nil => exact .slnil
  | cons a l ih =>
    simp only [firstsFrom]
    split
    · exact (ih seen).cons_cons a
    · split_ifs
      · exact (ih seen).cons a
      · exact (ih _).cons_cons a

lemma firsts_sublist (l : List α) : (firsts key l).Sublist l := sublist_firstsFrom [] l

lemma not_mem_seen {seen : List κ} {a : α} {k : κ} (ha : a ∈ firstsFrom key seen l)
    (hk : key a = some k) : k ∉ seen := by
  induction l generalizing seen with
  | nil => simp [firstsFrom] at ha
  | cons b l ih =>
    simp only [firstsFrom] at ha
    split at ha
    · rename_i hb
      rcases List.mem_cons.mp ha with rfl | ha
      · simp [hb] at hk
      · exact ih ha
    · rename_i k' hb
      split_ifs at ha with hseen
      · exact ih ha
      · rcases List.mem_cons.mp ha with rfl | ha
        · obtain rfl : k' = k := by simpa [hb] using hk
          exact hseen
        · exact fun hmem => ih ha (List.mem_cons_of_mem _ hmem)

lemma pairwise_firstsFrom {seen : List κ} (hkeyed : Keyed key l) :
    (firstsFrom key seen l).Pairwise fun a b => key a ≠ key b := by
  induction l generalizing seen with
  | nil => exact .nil
  | cons a l ih =>
    have hl : Keyed key l := fun b hb => hkeyed b (List.mem_cons_of_mem a hb)
    obtain ⟨k, hk⟩ := Option.isSome_iff_exists.mp (hkeyed a List.mem_cons_self)
    simp only [firstsFrom, hk]
    split_ifs
    · exact ih hl
    · refine .cons (fun b hb heq => ?_) (ih hl)
      exact not_mem_seen hb (heq.symm.trans hk) List.mem_cons_self

lemma pairwise_firsts (hkeyed : Keyed key l) :
    (firsts key l).Pairwise fun a b => key a ≠ key b := pairwise_firstsFrom hkeyed

lemma nodup_firsts (hkeyed : Keyed key l) : (firsts key l).Nodup :=
  (pairwise_firsts hkeyed).imp fun hne heq => hne (congrArg key heq)

lemma exists_mem_firstsFrom (seen : List κ) {a : α} {k : κ} (ha : a ∈ l) (hk : key a = some k)
    (hseen : k ∉ seen) : ∃ b ∈ firstsFrom key seen l, key b = some k := by
  induction l generalizing seen with
  | nil => simp at ha
  | cons b l ih =>
    simp only [firstsFrom]
    rcases List.mem_cons.mp ha with rfl | ha
    · simp only [hk, if_neg hseen]
      exact ⟨a, List.mem_cons_self, hk⟩
    · split
      · obtain ⟨c, hc, hck⟩ := ih seen ha hseen
        exact ⟨c, List.mem_cons_of_mem b hc, hck⟩
      · rename_i k' hb
        split_ifs with hk'
        · exact ih seen ha hseen
        · by_cases heq : k' = k
          · exact ⟨b, List.mem_cons_self, by rw [hb, heq]⟩
          · obtain ⟨c, hc, hck⟩ := ih (k' :: seen) ha (by simp [hseen, Ne.symm heq])
            exact ⟨c, List.mem_cons_of_mem b hc, hck⟩

lemma mem_firsts (hkeyed : Keyed key l) (hnamed : Named key l) {a : α} :
    a ∈ firsts key l ↔ a ∈ l := by
  refine ⟨fun h => (firsts_sublist l).subset h, fun ha => ?_⟩
  obtain ⟨k, hk⟩ := Option.isSome_iff_exists.mp (hkeyed a ha)
  obtain ⟨b, hb, hbk⟩ := exists_mem_firstsFrom [] ha hk (by simp)
  obtain rfl : b = a := hnamed b ((firsts_sublist l).subset hb) a ha (hbk.trans hk.symm)
  exact hb

/-- A part of a list, and what it leaves out: a selection of the list whose keys name its elements
is, with the elements it leaves out, the list itself. -/
theorem exists_rest [DecidableEq α] (hkeyed : Keyed key l) (hnamed : Named key l) (hsub : l' ⊆ l) :
    ∃ rest, (firsts key l' ++ rest).Perm (firsts key l) ∧ ∀ a ∈ rest, a ∈ l ∧ a ∉ l' := by
  have hnodup := nodup_firsts hkeyed
  have hpart : firsts key l' ⊆ firsts key l := by
    intro a ha
    rw [mem_firsts hkeyed hnamed]
    exact hsub ((firsts_sublist l').subset ha)
  have hcount := List.subperm_ext_iff.mp ((nodup_firsts (hkeyed.mono hsub)).subperm hpart)
  refine ⟨(firsts key l).diff (firsts key l'), List.subperm_append_diff_self_of_count_le hcount,
    fun a ha => ?_⟩
  rw [hnodup.mem_sdiff_iff, mem_firsts hkeyed hnamed,
    mem_firsts (hkeyed.mono hsub) (hnamed.mono hsub)] at ha
  exact ha

/-- Two lists of the same elements keep the same ones, up to their order. -/
theorem firsts_perm (hkeyed : Keyed key l) (hnamed : Named key l) (hmem : ∀ a, a ∈ l' ↔ a ∈ l) :
    (firsts key l').Perm (firsts key l) := by
  have hsub : l' ⊆ l := fun a ha => (hmem a).mp ha
  rw [List.perm_ext_iff_of_nodup (nodup_firsts (hkeyed.mono hsub)) (nodup_firsts hkeyed)]
  intro a
  rw [mem_firsts (hkeyed.mono hsub) (hnamed.mono hsub), mem_firsts hkeyed hnamed, hmem]

end Firsts
end GuvFX
