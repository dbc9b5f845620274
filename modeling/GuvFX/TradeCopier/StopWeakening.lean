/-
# When a change of the stop weakens it

The lifecycle defers a change of the stop that would weaken the follower's, and the producer refuses it.
Each has a check of its own.  Both count a removal, a change that cannot be verified, and a stop that is
further away from the entry; the two differ only where the entry price is zero.

The distance is the loss for stops on the losing side of the entry.  Past the entry it is not: a stop that
secures a larger gain is further away.
-/
import Mathlib.Algebra.Order.Ring.Unbundled.Rat
import GuvFX.TradeCopier.ExecutionProducer

namespace GuvFX
namespace StopWeakening

open Diff (hasLevel priceEps)
open ExecutionProducer (MasterEvent slWeakeningReason)
open LiveExecution (MasterPosition)

/-- The check of the lifecycle. -/
def modifyWeakens (event : MasterEvent) (snap : Option MasterPosition) : Bool :=
  match event.eventType with
  | .slRemove => true
  | .slChange =>
    if !hasLevel event.newSl then true
    else
      match snap.bind (·.priceOpen), event.prevSl, event.newSl with
      | some entry, some prevSl, some newSl =>
        if !hasLevel (some prevSl) then true
        else decide (|entry - prevSl| + priceEps < |entry - newSl|)
      | _, _, _ => true
  | _ => false

/-- What is lost when the stop of a position is hit; a gain is a negative loss. -/
def lossAt (side : String) (entry sl : ℚ) : ℚ := if side = "BUY" then entry - sl else sl - entry

structure Known (event : MasterEvent) (snap : Option MasterPosition) (entry prevSl newSl : ℚ) : Prop where
  entry_eq : snap.bind (·.priceOpen) = some entry
  prevSl_eq : event.prevSl = some prevSl
  newSl_eq : event.newSl = some newSl
  entry_level : hasLevel (some entry) = true
  prevSl_level : hasLevel (some prevSl) = true
  newSl_level : hasLevel (some newSl) = true

variable {event : MasterEvent} {snap : Option MasterPosition} {entry prevSl newSl : ℚ}

lemma modifyWeakens_eq (hentry : ∀ entry, snap.bind (·.priceOpen) = some entry →
    hasLevel (some entry) = true) : modifyWeakens event snap = (slWeakeningReason event snap).isSome := by
  cases hevent : event.eventType with
  | slChange =>
    simp only [modifyWeakens, slWeakeningReason, hevent]
    split
    · rfl
    cases hknown : snap.bind (·.priceOpen) with
    | none => rfl
    | some entry =>
      have hlevel := hentry entry hknown
      cases event.prevSl with
      | none => rfl
      | some prevSl =>
        cases event.newSl with
        | none => rfl
        | some newSl =>
          simp only [hlevel]
          split_ifs <;> simp_all
  | _ => simp [modifyWeakens, slWeakeningReason, hevent]

lemma slWeakeningReason_of_known (hevent : event.eventType = .slChange)
    (h : Known event snap entry prevSl newSl) : (slWeakeningReason event snap).isSome = true ↔
      |entry - prevSl| + priceEps < |entry - newSl| := by
  simp only [slWeakeningReason, hevent, h.entry_eq, h.prevSl_eq, h.newSl_eq, h.entry_level, h.prevSl_level,
    h.newSl_level]
  split_ifs <;> simp_all

lemma slWeakeningReason_of_unknown (hevent : event.eventType = .slChange)
    (h : ¬ ∃ entry prevSl newSl, Known event snap entry prevSl newSl) :
    (slWeakeningReason event snap).isSome = true := by
  simp only [slWeakeningReason, hevent]
  split
  · rfl
  split
  · rename_i hnew _ _ _ entry prevSl newSl hentry hprev hsl
    split
    · rfl
    · rename_i hlevels
      simp only [not_or, Bool.not_eq_true', Bool.not_eq_false] at hlevels
      refine absurd ⟨entry, prevSl, newSl, hentry, hprev, hsl, hlevels.1, hlevels.2, ?_⟩ h
      simpa [hsl] using hnew
  · rfl

lemma abs_sub_of_lossAt {side : String} {sl : ℚ} (h : 0 ≤ lossAt side entry sl) :
    |entry - sl| = lossAt side entry sl := by
  unfold lossAt at h ⊢
  split_ifs at h ⊢
  · exact abs_of_nonneg h
  · rw [abs_sub_comm, abs_of_nonneg h]

/-- Where the entry price is not zero, the two checks agree.  They count a removal and a change of which
something is not known, and a change between known prices where the new stop is further away from the
entry: for stops on the losing side, where the loss is larger. -/
theorem weakens_iff (hentry : ∀ entry, snap.bind (·.priceOpen) = some entry →
    hasLevel (some entry) = true) :
    (modifyWeakens event snap = true ↔ (slWeakeningReason event snap).isSome = true) ∧
    ((slWeakeningReason event snap).isSome = true ↔ event.eventType = .slRemove ∨
      event.eventType = .slChange ∧ ∀ entry prevSl newSl, Known event snap entry prevSl newSl →
        |entry - prevSl| + priceEps < |entry - newSl|) ∧
    ∀ entry prevSl newSl, event.eventType = .slChange → Known event snap entry prevSl newSl →
      0 ≤ lossAt event.side entry prevSl → 0 ≤ lossAt event.side entry newSl →
        ((slWeakeningReason event snap).isSome = true ↔
          lossAt event.side entry prevSl + priceEps < lossAt event.side entry newSl) := by
  refine ⟨by rw [modifyWeakens_eq hentry], ?_, fun entry prevSl newSl hevent hknown hprev hnew => ?_⟩
  · cases hevent : event.eventType with
    | slRemove => simp [slWeakeningReason, hevent]
    | slChange =>
      by_cases hknown : ∃ entry prevSl newSl, Known event snap entry prevSl newSl
      · obtain ⟨entry, prevSl, newSl, hknown⟩ := hknown
        rw [slWeakeningReason_of_known hevent hknown]
        refine ⟨fun h => .inr ⟨rfl, fun _ _ _ hother => ?_⟩, fun h => ?_⟩
        · obtain rfl := Option.some.inj (hknown.entry_eq.symm.trans hother.entry_eq)
          obtain rfl := Option.some.inj (hknown.prevSl_eq.symm.trans hother.prevSl_eq)
          obtain rfl := Option.some.inj (hknown.newSl_eq.symm.trans hother.newSl_eq)
          exact h
        · exact (h.resolve_left nofun).2 entry prevSl newSl hknown
      · refine iff_of_true (slWeakeningReason_of_unknown hevent hknown) (.inr ⟨rfl, fun _ _ _ h => ?_⟩)
        exact absurd ⟨_, _, _, h⟩ hknown
    | _ => simp [slWeakeningReason, hevent]
  · rw [slWeakeningReason_of_known hevent hknown, abs_sub_of_lossAt hprev, abs_sub_of_lossAt hnew]

def moved (prevSl newSl : ℚ) : MasterEvent where
  masterAccountId := 1
  sequence := 2
  eventType := .slChange
  positionTicket := 77
  symbol := "EURUSD"
  side := "BUY"
  volumeAfter := 1
  volumeDelta := 0
  observedAt := 0
  volumeBefore := 1
  prevSl := some prevSl
  newSl := some newSl

def boughtAt (entry : ℚ) : MasterPosition where
  side := "BUY"
  priceOpen := some entry
  sl := none
  tp := none

theorem weakens_moved : modifyWeakens (moved (105 / 100) (104 / 100)) (some (boughtAt (11 / 10))) = true := by
  refine (weakens_iff fun entry hentry => ?_).1.mpr (by decide +kernel)
  obtain rfl := Option.some.inj hentry
  decide +kernel

/-- A stop past the entry that secures more is counted as well. -/
theorem not_weakens_iff : ¬ ∀ (event : MasterEvent) snap, (modifyWeakens event snap = true ↔
    (slWeakeningReason event snap).isSome = true) ∧ ∀ entry prevSl newSl,
      event.eventType = .slChange → Known event snap entry prevSl newSl →
        ((slWeakeningReason event snap).isSome = true ↔
          lossAt event.side entry prevSl < lossAt event.side entry newSl) := by
  intro h
  have hloss := (h (moved (111 / 100) (113 / 100)) (some (boughtAt (11 / 10)))).2 (11 / 10) (111 / 100)
    (113 / 100) rfl ⟨rfl, rfl, rfl, by decide +kernel, by decide +kernel, by decide +kernel⟩
  revert hloss
  decide +kernel

end StopWeakening
end GuvFX
