/-
# Runs of a system under an arbitrary schedule

A system is given by a total step function `step : σ → α → σ` from a state and an action to
the next state; an action that is not enabled leaves the state as it is.  Every list of
actions is then a run, so that "for every interleaving" is a quantifier over lists.

The file packages the inductions over runs: an invariant that each step preserves, a
relation that each step respects, the same for the runs whose steps all meet a condition on
the state before the step, and the states that a run has visited.
-/
import Mathlib.Data.List.Infix
import Mathlib.Data.List.Induction
import Mathlib.Order.Defs.Unbundled

namespace GuvFX
namespace Runs

variable {σ α : Type*}

/-- The state after the actions `as`, starting from `s`. -/
def run (step : σ → α → σ) (s : σ) (as : List α) : σ := as.foldl step s

variable {step : σ → α → σ}

@[simp] lemma run_nil (s : σ) : run step s [] = s := rfl

@[simp] lemma run_cons (s : σ) (a : α) (as : List α) :
    run step s (a :: as) = run step (step s a) as := rfl

lemma run_append (s : σ) (as bs : List α) :
    run step s (as ++ bs) = run step (run step s as) bs := List.foldl_append

@[simp] lemma run_concat (s : σ) (as : List α) (a : α) :
    run step s (as ++ [a]) = step (run step s as) a := by
  rw [run_append]; rfl

/-- A property that every step preserves holds after every run. -/
theorem run_invariant {P : σ → Prop} (hstep : ∀ s a, P s → P (step s a)) {s : σ} (hs : P s)
    (as : List α) : P (run step s as) := by
  induction as generalizing s with
  | nil => exact hs
  | cons a as ih => exact ih (hstep s a hs)

/-- A reflexive and transitive relation that every step respects, at the states that have
an invariant, holds between the two ends of every run. -/
theorem run_rel {P : σ → Prop} {R : σ → σ → Prop} [Std.Refl R] [IsTrans σ R]
    (hstep : ∀ s a, P s → P (step s a)) (hrel : ∀ s a, P s → R s (step s a)) {s : σ} (hs : P s)
    (as : List α) : R s (run step s as) := by
  induction as generalizing s with
  | nil => exact refl_of R s
  | cons a as ih => exact trans_of R (hrel s a hs) (ih (hstep s a hs))

/-! ### Runs whose steps all meet a condition -/

/-- Every action of `as` is taken in a state in which it meets the condition `C`. -/
def StepsMeet (step : σ → α → σ) (C : σ → α → Prop) : σ → List α → Prop
  | _, [] => True
  | s, a :: as => C s a ∧ StepsMeet step C (step s a) as

variable {C : σ → α → Prop}

instance decidableStepsMeet [∀ s a, Decidable (C s a)] :
    ∀ (s : σ) (as : List α), Decidable (StepsMeet step C s as)
  | _, [] => .isTrue trivial
  | s, a :: as =>
    have := decidableStepsMeet (step s a) as
    inferInstanceAs (Decidable (C s a ∧ StepsMeet step C (step s a) as))

lemma stepsMeet_append {s : σ} {as bs : List α} :
    StepsMeet step C s (as ++ bs) ↔ StepsMeet step C s as ∧ StepsMeet step C (run step s as) bs := by
  induction as generalizing s with
  | nil => simp [StepsMeet]
  | cons a as ih => simp [StepsMeet, ih, and_assoc]

lemma stepsMeet_iff {s : σ} {as : List α} :
    StepsMeet step C s as ↔ ∀ pre a post, as = pre ++ a :: post → C (run step s pre) a := by
  induction as generalizing s with
  | nil => simp [StepsMeet]
  | cons b bs ih =>
    constructor
    · rintro ⟨hb, hbs⟩ pre a post h
      rcases List.cons_eq_append_iff.mp h with ⟨rfl, hcons⟩ | ⟨pre', rfl, hrest⟩
      · obtain ⟨rfl, -⟩ := List.cons.inj hcons
        exact hb
      · exact ih.mp hbs pre' a post hrest
    · intro h
      refine ⟨h [] b bs rfl, ih.mpr fun pre a post hpre => ?_⟩
      exact h (b :: pre) a post (by rw [hpre]; rfl)

lemma stepsMeet_of_forall_mem {D : α → Prop} {s : σ} {as : List α} (h : ∀ a ∈ as, D a) :
    StepsMeet step (fun _ a => D a) s as := by
  refine stepsMeet_iff.mpr fun pre a post has => h a ?_
  rw [has]
  exact List.mem_append_right _ List.mem_cons_self

/-- Two conditions that agree at the states of an invariant are met by the same runs. -/
theorem stepsMeet_congr {D : σ → α → Prop} {P : σ → Prop} (hstep : ∀ s a, P s → P (step s a))
    (hiff : ∀ s a, P s → (C s a ↔ D s a)) {s : σ} (hs : P s) (as : List α) :
    StepsMeet step C s as ↔ StepsMeet step D s as := by
  induction as generalizing s with
  | nil => exact Iff.rfl
  | cons a as ih => exact and_congr (hiff s a hs) (ih (hstep s a hs))

/-- A condition that follows, at the states of an invariant, from another one. -/
theorem StepsMeet.imp {D : σ → α → Prop} {P : σ → Prop}
    (hstep : ∀ s a, P s → C s a → P (step s a)) (himp : ∀ s a, P s → C s a → D s a) {s : σ}
    (hs : P s) {as : List α} (has : StepsMeet step C s as) : StepsMeet step D s as := by
  induction as generalizing s with
  | nil => trivial
  | cons a as ih => exact ⟨himp s a hs has.1, ih (hstep s a hs has.1) has.2⟩

/-- An invariant that the steps meeting the condition preserve. -/
theorem run_invariant_of_meets {P : σ → Prop} (hstep : ∀ s a, P s → C s a → P (step s a))
    {s : σ} (hs : P s) {as : List α} (has : StepsMeet step C s as) : P (run step s as) := by
  induction as generalizing s with
  | nil => exact hs
  | cons a as ih => exact ih (hstep s a hs has.1) has.2

/-- A relation that the steps meeting the condition respect, at the states that have an
invariant. -/
theorem run_rel_of_meets {P : σ → Prop} {R : σ → σ → Prop} [Std.Refl R] [IsTrans σ R]
    (hstep : ∀ s a, P s → C s a → P (step s a)) (hrel : ∀ s a, P s → C s a → R s (step s a))
    {s : σ} (hs : P s) {as : List α} (has : StepsMeet step C s as) : R s (run step s as) := by
  induction as generalizing s with
  | nil => exact refl_of R s
  | cons a as ih =>
    exact trans_of R (hrel s a hs has.1) (ih (hstep s a hs has.1) has.2)

/-! ### Counting steps -/

def countSteps (step : σ → α → σ) (P : σ → α → Bool) : σ → List α → ℕ
  | _, [] => 0
  | s, a :: as => (if P s a then 1 else 0) + countSteps step P (step s a) as

lemma countSteps_append {P : σ → α → Bool} (s : σ) (as bs : List α) :
    countSteps step P s (as ++ bs) =
      countSteps step P s as + countSteps step P (run step s as) bs := by
  induction as generalizing s with
  | nil => rw [List.nil_append, countSteps, run_nil, Nat.zero_add]
  | cons a as ih => rw [List.cons_append, countSteps, countSteps, ih, run_cons, Nat.add_assoc]

lemma countSteps_singleton {P : σ → α → Bool} (s : σ) (a : α) :
    countSteps step P s [a] = if P s a then 1 else 0 := rfl

/-- Steps that raise a rank up to a bound, in a system whose steps never lower it, occur as often as there
is room below the bound. -/
theorem countSteps_le {P : σ → α → Bool} {rank : σ → ℕ} (n : ℕ)
    (hmono : ∀ s a, rank s ≤ rank (step s a))
    (hraise : ∀ s a, P s a = true → rank s < rank (step s a) ∧ rank (step s a) ≤ n) (s : σ)
    (as : List α) : countSteps step P s as ≤ n - rank s := by
  induction as generalizing s with
  | nil => exact Nat.zero_le _
  | cons a as ih =>
    have hrest := ih (step s a)
    rw [countSteps]
    by_cases hP : P s a = true
    · obtain ⟨hlt, hle⟩ := hraise s a hP
      rw [if_pos hP]
      omega
    · have hle := hmono s a
      rw [if_neg hP]
      omega

/-- Steps that cross a level of a rank, in a system whose steps never lower it, occur once. -/
theorem countSteps_le_one {P : σ → α → Bool} {rank : σ → ℕ} (r : ℕ)
    (hmono : ∀ s a, rank s ≤ rank (step s a))
    (hcross : ∀ s a, P s a = true → rank s < r ∧ r ≤ rank (step s a)) (s : σ) (as : List α) :
    countSteps step P s as ≤ 1 := by
  -- the rank that counts is whether the level is reached
  let reached : σ → ℕ := fun s => if r ≤ rank s then 1 else 0
  have hmono' : ∀ s a, reached s ≤ reached (step s a) := by
    intro s a
    have hle := hmono s a
    simp only [reached]
    split_ifs <;> omega
  have hraise : ∀ s a, P s a = true →
      reached s < reached (step s a) ∧ reached (step s a) ≤ 1 := by
    intro s a hP
    obtain ⟨hlt, hle⟩ := hcross s a hP
    simp [reached, Nat.not_le.mpr hlt, hle]
  exact (countSteps_le 1 hmono' hraise s as).trans (Nat.sub_le _ _)

/-! ### The outputs of a run -/

variable {β : Type*} {f : σ → α → Option β}

def trace (step : σ → α → σ) (f : σ → α → Option β) : σ → List α → List β
  | _, [] => []
  | s, a :: as => (f s a).toList ++ trace step f (step s a) as

@[simp] lemma trace_nil (s : σ) : trace step f s [] = [] := rfl

lemma trace_append (s : σ) (as bs : List α) :
    trace step f s (as ++ bs) = trace step f s as ++ trace step f (run step s as) bs := by
  induction as generalizing s with
  | nil => rfl
  | cons a as ih => rw [List.cons_append, trace, trace, ih, run_cons, List.append_assoc]

lemma trace_concat (s : σ) (as : List α) (a : α) :
    trace step f s (as ++ [a]) = trace step f s as ++ (f (run step s as) a).toList := by
  rw [trace_append, trace, trace_nil, List.append_nil]

lemma mem_trace_concat {s : σ} {as : List α} {a : α} {b : β} :
    b ∈ trace step f s (as ++ [a]) ↔ b ∈ trace step f s as ∨ f (run step s as) a = some b := by
  rw [trace_concat, List.mem_append, Option.mem_toList]

/-! ### The states a run has visited -/

/-- Some state of the run satisfies `P`. -/
def Visited (step : σ → α → σ) (s : σ) (as : List α) (P : σ → Prop) : Prop :=
  ∃ pre, pre <+: as ∧ P (run step s pre)

lemma Visited.append {s : σ} {as : List α} {P : σ → Prop} (h : Visited step s as P)
    (bs : List α) : Visited step s (as ++ bs) P := by
  obtain ⟨pre, hpre, hP⟩ := h
  exact ⟨pre, hpre.trans (List.prefix_append as bs), hP⟩

lemma visited_cons {s : σ} {a : α} {as : List α} {P : σ → Prop} :
    Visited step s (a :: as) P ↔ P s ∨ Visited step (step s a) as P := by
  constructor
  · rintro ⟨pre, hpre, hP⟩
    rcases List.prefix_cons_iff.mp hpre with rfl | ⟨pre', rfl, hpre'⟩
    · exact .inl hP
    · exact .inr ⟨pre', hpre', hP⟩
  · rintro (hP | ⟨pre, hpre, hP⟩)
    · exact ⟨[], List.nil_prefix, hP⟩
    · exact ⟨a :: pre, List.prefix_cons_iff.mpr (.inr ⟨pre, rfl, hpre⟩), hP⟩

@[simp] lemma visited_nil {s : σ} {P : σ → Prop} : Visited step s [] P ↔ P s := by
  constructor
  · rintro ⟨pre, hpre, hP⟩
    rwa [List.prefix_nil.mp hpre] at hP
  · exact fun hP => ⟨[], List.nil_prefix, hP⟩

lemma Visited.last {s : σ} {as : List α} {P : σ → Prop} (h : P (run step s as)) :
    Visited step s as P := ⟨as, List.prefix_refl as, h⟩

/-- Induction for facts about a run and the history behind it: the last step extends a run
for which the fact is known. -/
theorem run_history {Q : List α → σ → Prop} {s : σ} (h0 : Q [] s)
    (hstep : ∀ as a, Q as (run step s as) → Q (as ++ [a]) (step (run step s as) a))
    (as : List α) : Q as (run step s as) := by
  induction as using List.reverseRecOn with
  | nil => exact h0
  | append_singleton as a ih => rw [run_concat]; exact hstep as a ih

/-- The same for the runs whose steps all meet a condition. -/
theorem run_history_of_meets {Q : List α → σ → Prop} {s : σ} (h0 : Q [] s)
    (hstep : ∀ as a, Q as (run step s as) → C (run step s as) a →
      Q (as ++ [a]) (step (run step s as) a))
    {as : List α} (has : StepsMeet step C s as) : Q as (run step s as) := by
  induction as using List.reverseRecOn with
  | nil => exact h0
  | append_singleton as a ih =>
    obtain ⟨has, ha, -⟩ := stepsMeet_append.mp has
    rw [run_concat]
    exact hstep as a (ih has) ha

end Runs
end GuvFX
