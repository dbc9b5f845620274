/-
# Row locks

Sessions hold exclusive locks on rows.  A lock is taken when it is free and is given up with all the
other locks of its session, at the end of its transaction.  What a session holds is also a matter of
where it stands in its program; the file keeps the two views together: that the lock table says
exactly what the sessions believe to hold is kept by taking and by giving up locks, and makes every
lock exclusive.
-/
import Mathlib.Data.Nat.Notation
import Mathlib.Logic.Function.Basic
import Mathlib.Tactic.Lemma

namespace GuvFX

/-- The session that holds each row. -/
abbrev Locks (ρ : Type*) := ρ → Option ℕ

namespace Locks

variable {ρ : Type*}

def free : Locks ρ := fun _ => none

/-- Session `p` takes the lock of a row. -/
def take [DecidableEq ρ] (locks : Locks ρ) (row : ρ) (p : ℕ) : Locks ρ :=
  Function.update locks row (some p)

/-- Session `p` gives up its locks. -/
def release (locks : Locks ρ) (p : ℕ) : Locks ρ :=
  fun row => if locks row = some p then none else locks row

/-- The lock table says of each row who believes to hold it. -/
def Held (holds : ℕ → ρ → Prop) (locks : Locks ρ) : Prop :=
  ∀ row p, locks row = some p ↔ holds p row

variable {holds holds' : ℕ → ρ → Prop} {locks : Locks ρ} {row : ρ} {p q : ℕ}

lemma held_free : Held (fun _ _ => False) (free : Locks ρ) := by
  intro row p
  simp [free]

lemma Held.unique {r : ρ} (h : Held holds locks) (hp : holds p r) (hq : holds q r) : p = q := by
  have hlock := (h r p).mpr hp
  rw [(h r q).mpr hq] at hlock
  exact (Option.some.inj hlock).symm

lemma Held.not_holds_of_free (h : Held holds locks) (hfree : locks row = none) (p : ℕ) :
    ¬ holds p row := by
  intro hp
  rw [(h row p).mpr hp] at hfree
  cases hfree

lemma Held.congr (h : Held holds locks) (heq : ∀ q r, holds' q r ↔ holds q r) :
    Held holds' locks := by
  intro row p
  rw [h row p, heq]

lemma Held.take [DecidableEq ρ] (h : Held holds locks) (hfree : locks row = none)
    (hother : ∀ q r, q ≠ p → (holds' q r ↔ holds q r))
    (hself : ∀ r, holds' p r ↔ holds p r ∨ r = row) : Held holds' (locks.take row p) := by
  intro r q
  by_cases hr : r = row
  · subst hr
    rw [Locks.take, Function.update_self, Option.some.injEq]
    constructor
    · rintro rfl
      exact (hself r).mpr (.inr rfl)
    · intro hq
      by_contra hne
      exact h.not_holds_of_free hfree q ((hother q r (Ne.symm hne)).mp hq)
  · rw [Locks.take, Function.update_of_ne hr, h r q]
    by_cases hq : q = p
    · subst hq
      simp [hself, hr]
    · exact (hother q r hq).symm

lemma Held.release (h : Held holds locks) (hother : ∀ q r, q ≠ p → (holds' q r ↔ holds q r))
    (hself : ∀ r, ¬ holds' p r) : Held holds' (locks.release p) := by
  intro r q
  unfold Locks.release
  by_cases hr : locks r = some p
  · have hp : holds p r := (h r p).mp hr
    rw [if_pos hr]
    refine iff_of_false (by simp) fun hq => ?_
    by_cases hqp : q = p
    · exact hself r (hqp ▸ hq)
    · exact hqp (h.unique ((hother q r hqp).mp hq) hp)
  · rw [if_neg hr, h r q]
    by_cases hqp : q = p
    · subst hqp
      exact iff_of_false (fun hq => hr ((h r q).mpr hq)) (hself r)
    · exact (hother q r hqp).symm

/-! ### Sessions at places of their programs -/

section Places

variable {π : Type*} (holdsAt : π → ρ → Prop) {pc : ℕ → π} {place : π}

lemma Held.moved (h : Held (fun q => holdsAt (pc q)) locks)
    (hself : ∀ r, holdsAt place r ↔ holdsAt (pc p) r) :
    Held (fun q => holdsAt (Function.update pc p place q)) locks := by
  refine h.congr fun q r => ?_
  by_cases hq : q = p
  · subst hq
    rw [Function.update_self, hself]
  · rw [Function.update_of_ne hq]

lemma Held.moved_take [DecidableEq ρ] (h : Held (fun q => holdsAt (pc q)) locks)
    (hfree : locks row = none) (hself : ∀ r, holdsAt place r ↔ holdsAt (pc p) r ∨ r = row) :
    Held (fun q => holdsAt (Function.update pc p place q)) (locks.take row p) := by
  refine h.take hfree (fun q r hq => ?_) fun r => ?_
  · rw [Function.update_of_ne hq]
  · rw [Function.update_self, hself]

lemma Held.moved_release (h : Held (fun q => holdsAt (pc q)) locks) (hself : ∀ r, ¬ holdsAt place r) :
    Held (fun q => holdsAt (Function.update pc p place q)) (locks.release p) := by
  refine h.release (fun q r hq => ?_) fun r => ?_
  · rw [Function.update_of_ne hq]
  · rw [Function.update_self]
    exact hself r

end Places

end Locks
end GuvFX
