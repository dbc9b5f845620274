/-
# The latest of a stream

Candidates arrive in any order, each with a rank; a candidate replaces the best one so far when
its rank is strictly above it, and above a floor that is given beforehand.  Whatever the order, the
result is the candidate of the highest rank above the floor, if there is one.
-/
import Mathlib.Data.List.Induction
import Mathlib.Order.Lattice

namespace GuvFX
namespace Latest

variable {α R : Type*} [LinearOrder R]

def stale (last : Option R) (r : R) : Bool := last.any fun l => r ≤ l

def mark (rank : α → R) (floor : Option R) (best : Option α) : Option R :=
  (best.map rank).or floor

/-- One candidate. -/
def keepNewer (rank : α → R) (floor : Option R) (best : Option α) (a : α) : Option α :=
  if stale (mark rank floor best) (rank a) then best else some a

/-- The best of a stream of candidates. -/
def latest (rank : α → R) (floor : Option R) (as : List α) : Option α :=
  as.foldl (keepNewer rank floor) none

variable {rank : α → R} {floor : Option R} {as : List α} {a w : α}

lemma stale_some {l r : R} : stale (some l) r = true ↔ r ≤ l := by simp [stale]

@[simp] lemma latest_nil : latest rank floor [] = none := rfl

lemma latest_concat (as : List α) (a : α) :
    latest rank floor (as ++ [a]) = keepNewer rank floor (latest rank floor as) a := by
  simp [latest]

lemma keepNewer_none (a : α) :
    keepNewer rank floor none a = if stale floor (rank a) then none else some a := rfl

lemma keepNewer_some (w a : α) :
    keepNewer rank floor (some w) a = if rank a ≤ rank w then some w else some a := by
  simp [keepNewer, mark, stale]

/-- What the best of the candidates `as` is: above the floor, and not below any candidate; and if
there is none, no candidate is above the floor. -/
def IsLatest (rank : α → R) (floor : Option R) (as : List α) : Option α → Prop
  | none => ∀ a ∈ as, stale floor (rank a) = true
  | some w => w ∈ as ∧ stale floor (rank w) = false ∧ ∀ a ∈ as, rank a ≤ rank w

lemma stale_mono {r r' : R} (h : r ≤ r') (hr : stale floor r = false) :
    stale floor r' = false := by
  cases floor with
  | none => rfl
  | some l =>
    rw [Bool.eq_false_iff, Ne, stale_some] at hr ⊢
    exact fun hle => hr (le_trans h hle)

lemma le_of_stale {r r' : R} (hr : stale floor r = true) (hr' : stale floor r' = false) :
    r ≤ r' := by
  rcases le_total r r' with hle | hle
  · exact hle
  · rw [stale_mono hle hr'] at hr
    cases hr

/-- One candidate more. -/
lemma IsLatest.concat {best : Option α} (h : IsLatest rank floor as best) (a : α) :
    IsLatest rank floor (as ++ [a]) (keepNewer rank floor best a) := by
  cases best with
  | none =>
    rw [keepNewer_none]
    cases hstale : stale floor (rank a) with
    | true =>
      intro b hb
      rcases List.mem_append.mp hb with hb | hb
      · exact h b hb
      · rw [List.mem_singleton.mp hb, hstale]
    | false =>
      -- nothing before was above the floor, and the new candidate is
      refine ⟨by simp, hstale, fun b hb => ?_⟩
      rcases List.mem_append.mp hb with hb | hb
      · exact le_of_stale (h b hb) hstale
      · rw [List.mem_singleton.mp hb]
  | some w =>
    obtain ⟨hmem, hfloor, hmax⟩ := h
    rw [keepNewer_some]
    split_ifs with hle
    · refine ⟨List.mem_append_left _ hmem, hfloor, fun b hb => ?_⟩
      rcases List.mem_append.mp hb with hb | hb
      · exact hmax b hb
      · rwa [List.mem_singleton.mp hb]
    · have hlt : rank w ≤ rank a := le_of_lt (not_le.mp hle)
      refine ⟨by simp, stale_mono hlt hfloor, fun b hb => ?_⟩
      rcases List.mem_append.mp hb with hb | hb
      · exact le_trans (hmax b hb) hlt
      · rw [List.mem_singleton.mp hb]

theorem isLatest_latest (rank : α → R) (floor : Option R) (as : List α) :
    IsLatest rank floor as (latest rank floor as) := by
  induction as using List.reverseRecOn with
  | nil => simp [IsLatest]
  | append_singleton as a ih =>
    rw [latest_concat]
    exact ih.concat a

lemma mem_of_latest (h : latest rank floor as = some w) : w ∈ as := by
  have hspec := isLatest_latest rank floor as
  rw [h] at hspec
  exact hspec.1

/-- **The latest candidate.**  When the ranks of the candidates are distinct, the best one is the
only one that the description fits. -/
theorem latest_eq_iff (hinj : ∀ a ∈ as, ∀ b ∈ as, rank a = rank b → a = b) {best : Option α} :
    latest rank floor as = best ↔ IsLatest rank floor as best := by
  constructor
  · rintro rfl
    exact isLatest_latest rank floor as
  · intro h
    have h' := isLatest_latest rank floor as
    cases hlatest : latest rank floor as with
    | none =>
      rw [hlatest] at h'
      cases best with
      | none => rfl
      | some w =>
        have hw := h' w h.1
        rw [h.2.1] at hw
        cases hw
    | some v =>
      rw [hlatest] at h'
      cases best with
      | none =>
        have hv := h v h'.1
        rw [h'.2.1] at hv
        cases hv
      | some w =>
        have hrank : rank v = rank w := le_antisymm (h.2.2 v h'.1) (h'.2.2 w h.1)
        rw [hinj v h'.1 w h.1 hrank]

/-! ### Marks -/

lemma mark_ext {m m' : Option R} (h : ∀ r, stale m r = true ↔ stale m' r = true) : m = m' := by
  cases m with
  | none =>
    cases m' with
    | none => rfl
    | some l' =>
      have hstale := (h l').mpr (stale_some.mpr le_rfl)
      cases hstale
  | some l =>
    cases m' with
    | none =>
      have hstale := (h l).mp (stale_some.mpr le_rfl)
      cases hstale
    | some l' =>
      have hle := stale_some.mp ((h l).mp (stale_some.mpr le_rfl))
      have hge := stale_some.mp ((h l').mpr (stale_some.mpr le_rfl))
      rw [le_antisymm hle hge]

lemma stale_mark_latest {r : R} :
    stale (mark rank floor (latest rank floor as)) r = true ↔
      stale floor r = true ∨ ∃ a ∈ as, r ≤ rank a := by
  have hspec := isLatest_latest rank floor as
  cases hlatest : latest rank floor as with
  | none =>
    rw [hlatest] at hspec
    have hmark : mark rank floor none = floor := rfl
    rw [hmark]
    constructor
    · exact Or.inl
    · rintro (hfloor | ⟨a, ha, hle⟩)
      · exact hfloor
      · -- the candidate is stale itself
        by_contra hr
        have habove := stale_mono hle (Bool.eq_false_iff.mpr hr)
        rw [hspec a ha] at habove
        cases habove
  | some w =>
    rw [hlatest] at hspec
    obtain ⟨hmem, hfloor, hmax⟩ := hspec
    have hmark : mark rank floor (some w) = some (rank w) := rfl
    rw [hmark, stale_some]
    constructor
    · exact fun hle => Or.inr ⟨w, hmem, hle⟩
    · rintro (hstale | ⟨a, ha, hle⟩)
      · exact le_of_stale hstale hfloor
      · exact hle.trans (hmax a ha)

/-! ### A stream in two parts -/

omit [LinearOrder R] in
lemma mark_or (best x : Option α) :
    mark rank floor (x.or best) = mark rank (mark rank floor best) x := by
  cases x <;> rfl

lemma latest_append (as bs : List α) : latest rank floor (as ++ bs) =
    (latest rank (mark rank floor (latest rank floor as)) bs).or (latest rank floor as) := by
  induction bs using List.reverseRecOn with
  | nil => simp
  | append_singleton bs b ih =>
    rw [← List.append_assoc, latest_concat, latest_concat, ih, keepNewer, mark_or, keepNewer]
    split_ifs <;> rfl

lemma mark_latest_eq_iff : mark rank floor (latest rank floor as) = floor ↔ latest rank floor as = none := by
  cases h : latest rank floor as with
  | none => exact iff_of_true rfl rfl
  | some w =>
    have hspec := isLatest_latest rank floor as
    rw [h] at hspec
    refine iff_of_false (fun hmark => ?_) nofun
    have habove := hspec.2.1
    rw [← hmark, Bool.eq_false_iff] at habove
    exact habove (stale_some.mpr le_rfl)

end Latest
end GuvFX
