/-
# Reconciliation of a partial close

A partial close is never declared terminal from the answer of the bridge alone: the remaining
volume is read back from the follower account and compared with the intended one.  The status
found is written on the replication row.
-/
import Mathlib.Algebra.Order.Group.Abs
import GuvFX.TradeCopier.Diff
import GuvFX.TradeCopier.Account

namespace GuvFX
namespace Reconcile

open Diff

/-- The values of the column `reconciliation_status`. -/
inductive ReconStatus where
  | blank
  | matched
  | unmatched
  | ambiguous
  | divergentMissing
  | partialDispatchRefused
  | partialSent
  | partialOutcomeUnknown
  | partialReconPending
  | partialReconciled
  | partialDivergentVolume
  | partialDivergentTicketGone
  | partialReconcileUnavailable
  | partialOperatorReview
  deriving DecidableEq, Repr

def ReconStatus.text : ReconStatus → String
  | .blank => ""
  | .matched => "MATCHED"
  | .unmatched => "UNMATCHED"
  | .ambiguous => "AMBIGUOUS"
  | .divergentMissing => "DIVERGENT_MISSING"
  | .partialDispatchRefused => "PCLOSE_DISPATCH_REFUSED"
  | .partialSent => "PCLOSE_SENT"
  | .partialOutcomeUnknown => "PCLOSE_OUTCOME_UNKNOWN"
  | .partialReconPending => "PCLOSE_RECON_PENDING"
  | .partialReconciled => "PCLOSE_RECONCILED"
  | .partialDivergentVolume => "PCLOSE_DIVERGENT_VOL"
  | .partialDivergentTicketGone => "PCLOSE_TICKET_GONE"
  | .partialReconcileUnavailable => "PCLOSE_RECON_UNAVAIL"
  | .partialOperatorReview => "PCLOSE_OPERATOR_REVIEW"

def partialTerminalStates : List ReconStatus :=
  [.partialReconciled, .partialDivergentVolume, .partialDivergentTicketGone,
    .partialOperatorReview]

/-- The states of a replication that has entered the mutation-dispatch lifecycle. -/
def partialDispatchMarkers : List ReconStatus :=
  [.partialSent, .partialOutcomeUnknown, .partialReconPending, .partialReconcileUnavailable]
    ++ partialTerminalStates

lemma mem_partialDispatchMarkers_of_terminal {c : ReconStatus} (h : c ∈ partialTerminalStates) :
    c ∈ partialDispatchMarkers := List.mem_append_right _ h

/-- The outcome of one read of the open positions of an account. -/
structure MasterReadResult where
  ok : Bool
  reason : String
  positions : List ObservedPosition
  readAt : Option Time
  deriving DecidableEq, Repr

def readFollowerPosition (ticket : ℤ) (result : MasterReadResult) :
    Except String (Option ObservedPosition) :=
  if !result.ok then .error result.reason
  else .ok (result.positions.find? fun p => p.ticket = ticket)

/-- What one read-back after a partial close says of the remaining volume.  Without a ticket
there is nothing to read and no status. -/
def partialCloseStatus (followerTicket : Option ℤ) (intendedRemaining step : ℚ)
    (result : MasterReadResult) : Option ReconStatus :=
  followerTicket.map fun ticket =>
    match readFollowerPosition ticket result with
    | .error _ => .partialReconcileUnavailable
    | .ok none => .partialDivergentTicketGone
    | .ok (some pos) =>
      let tol := max (step * (1 / 2)) (1 / 1000000000)
      if |pos.volume - intendedRemaining| ≤ tol then .partialReconciled
      else .partialDivergentVolume

lemma partialCloseStatus_cases {ticket : Option ℤ} {intended step : ℚ}
    {result : MasterReadResult} {c : ReconStatus}
    (h : partialCloseStatus ticket intended step result = some c) :
    c = .partialReconcileUnavailable ∨ c = .partialDivergentTicketGone
      ∨ c = .partialReconciled ∨ c = .partialDivergentVolume := by
  obtain ⟨t, -, rfl⟩ := Option.map_eq_some_iff.mp h
  cases readFollowerPosition t result with
  | error reason => simp
  | ok pos =>
    cases pos with
    | none => simp
    | some p => by_cases hv : |p.volume - intended| ≤ max (step * (1 / 2)) (1 / 1000000000) <;>
        simp_all

end Reconcile
end GuvFX
