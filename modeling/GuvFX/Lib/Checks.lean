/-
# Ordered checks with reasons

An admission gate evaluates its conditions one after the other and refuses with the reason of
the first one that fails.  Here such a gate is the list of its conditions with their reasons,
which keeps the order of the source in sight.
-/
import Mathlib.Tactic.Lemma

namespace GuvFX
namespace Checks

def firstRefusal (checks : List (Bool × String)) : Option String :=
  (checks.find? fun c => !c.1).map Prod.snd

@[simp] lemma firstRefusal_nil : firstRefusal [] = none := rfl

/-- A gate admits when all its checks pass. -/
lemma firstRefusal_eq_none_iff {cs : List (Bool × String)} :
    firstRefusal cs = none ↔ ∀ c ∈ cs, c.1 = true := by
  simp [firstRefusal]

end Checks
end GuvFX
