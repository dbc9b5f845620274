/-
# The lifecycle of a hosted workspace

The nine states of a workspace with the graph of its legal moves, and the decision of the workspace
manager: from an observation of the terminal and the state before it, the state the workspace should
have next.  A move that the graph does not have is replaced by holding the state before, with the
reason `ERROR`.

What the decision can do is said once, in three lemmas: it holds the state or moves along an edge, it
becomes ready for execution only when every condition for it holds, and where a healthy observation
leads from each state.
-/
import Mathlib.Tactic.ByContra
import Mathlib.Tactic.SplitIfs

namespace GuvFX
namespace HostedWorkspace

/-! ### States and moves -/

inductive WorkspaceLifecycleState
  | provisioning | waitingForLogin | connected | executionReady | executing | disconnected
  | recovering | suspended | retired
  deriving DecidableEq, Repr

def WorkspaceLifecycleState.value : WorkspaceLifecycleState → String
  | provisioning => "PROVISIONING"
  | waitingForLogin => "WAITING_FOR_LOGIN"
  | connected => "CONNECTED"
  | executionReady => "EXECUTION_READY"
  | executing => "EXECUTING"
  | disconnected => "DISCONNECTED"
  | recovering => "RECOVERING"
  | suspended => "SUSPENDED"
  | retired => "RETIRED"

inductive WorkspaceReason
  | none | accountMismatch | ipcFailure | brokerAuthFailure | degraded | staleObservation
  | operatorPause | error
  deriving DecidableEq, Repr

def WorkspaceReason.value : WorkspaceReason → String
  | none => "NONE"
  | accountMismatch => "ACCOUNT_MISMATCH"
  | ipcFailure => "IPC_FAILURE"
  | brokerAuthFailure => "BROKER_AUTH_FAILURE"
  | degraded => "DEGRADED"
  | staleObservation => "STALE_OBSERVATION"
  | operatorPause => "OPERATOR_PAUSE"
  | error => "ERROR"

open WorkspaceLifecycleState

def workspaceTransitions : WorkspaceLifecycleState → List WorkspaceLifecycleState
  | provisioning => [waitingForLogin, retired]
  | waitingForLogin => [connected]
  | connected => [executionReady, disconnected, suspended]
  | executionReady => [executing, connected, disconnected, suspended]
  | executing => [executionReady]
  | disconnected => [recovering, retired]
  | recovering => [connected]
  | suspended => [connected, retired]
  | retired => []

/-- Whether a move is legal, and why.  A name that is no state cannot be passed here. -/
def evaluateWorkspaceTransition (fromState toState : WorkspaceLifecycleState) : Bool × String :=
  if fromState = toState then (true, "idempotent")
  else if toState ∈ workspaceTransitions fromState then (true, "ok")
  else (false, "illegal_transition")

/-- Along an edge, or not at all. -/
def LegalMove (fromState toState : WorkspaceLifecycleState) : Prop :=
  toState = fromState ∨ toState ∈ workspaceTransitions fromState

instance (s t : WorkspaceLifecycleState) : Decidable (LegalMove s t) :=
  inferInstanceAs (Decidable (_ ∨ _))

lemma legalMove_iff {s t : WorkspaceLifecycleState} :
    LegalMove s t ↔ (evaluateWorkspaceTransition s t).1 = true := by
  unfold LegalMove evaluateWorkspaceTransition
  by_cases heq : s = t
  · simp [heq]
  · by_cases hmem : t ∈ workspaceTransitions s
    · simp [heq, hmem]
    · simp [heq, hmem, Ne.symm heq]

/-! ### The workspace manager -/

/-- The events of the lifecycle that entering a state can call for. -/
inductive WorkspaceEvent
  | created | waitingForLogin | connected | executionReady | disconnected | recovering
  | executionPaused
  deriving DecidableEq, Repr

def WorkspaceEvent.value : WorkspaceEvent → String
  | created => "workspace.created"
  | waitingForLogin => "workspace.waiting_for_login"
  | connected => "workspace.connected"
  | executionReady => "workspace.execution_ready"
  | disconnected => "workspace.disconnected"
  | recovering => "workspace.recovering"
  | executionPaused => "workspace.execution_paused"

/-- The health signals of a terminal, and the state before them. -/
structure WorkspaceObservation where
  processRunning : Bool
  ipcAvailable : Bool
  connected : Bool
  accountMatch : Bool
  tradeAllowed : Bool
  fresh : Bool
  previousState : WorkspaceLifecycleState
  previousReason : WorkspaceReason
  marginMode : Option Int
  deriving DecidableEq, Repr

structure WorkspaceDecision where
  nextState : WorkspaceLifecycleState
  reason : WorkspaceReason
  transitionRequired : Bool
  telemetryEvent : Option WorkspaceEvent
  executionReady : Bool
  recoveryRequired : Bool
  deriving DecidableEq, Repr

def eventForState : WorkspaceLifecycleState → Option WorkspaceEvent
  | provisioning => some .created
  | waitingForLogin => some .waitingForLogin
  | connected => some .connected
  | executionReady => some .executionReady
  | disconnected => some .disconnected
  | recovering => some .recovering
  | suspended => some .executionPaused
  | executing | retired => none

def allExecutionConditions (obs : WorkspaceObservation) : Bool :=
  obs.processRunning && obs.ipcAvailable && obs.connected && obs.accountMatch && obs.fresh
    && obs.tradeAllowed

def targetFor (obs : WorkspaceObservation) : WorkspaceLifecycleState × WorkspaceReason :=
  let attached := obs.processRunning && obs.ipcAvailable
  if allExecutionConditions obs then (executionReady, .none)
  else if attached && obs.connected then
    if !obs.accountMatch then (suspended, .accountMismatch)
    else if !obs.fresh then (connected, .staleObservation)
    else (connected, .none)
  else if attached && !obs.connected then
    if obs.previousState = provisioning ∨ obs.previousState = waitingForLogin then
      (waitingForLogin, .none)
    else (disconnected, .brokerAuthFailure)
  else if obs.previousState = provisioning then (waitingForLogin, .none)
  else if obs.previousState = disconnected then (recovering, .none)
  else if obs.previousState ∈ [waitingForLogin, recovering, suspended, retired] then
    (obs.previousState, obs.previousReason)
  else (disconnected, if obs.processRunning then .ipcFailure else .none)

def deriveWorkspaceDecision (obs : WorkspaceObservation) : WorkspaceDecision :=
  let asked := targetFor obs
  let prev := obs.previousState
  let (target, reason, transitionRequired) :=
    if prev = asked.1 then (asked.1, asked.2, false)
    else if (evaluateWorkspaceTransition prev asked.1).1 then (asked.1, asked.2, true)
    else (prev, .error, false)
  { nextState := target
    reason := reason
    transitionRequired := transitionRequired
    telemetryEvent := if transitionRequired then eventForState target else none
    executionReady := target = executionReady
    recoveryRequired := target = disconnected || target = recovering }

/-! ### What a decision can do -/

lemma derive_cases (obs : WorkspaceObservation) :
    (LegalMove obs.previousState (targetFor obs).1 ∧
        (deriveWorkspaceDecision obs).nextState = (targetFor obs).1 ∧
        (deriveWorkspaceDecision obs).reason = (targetFor obs).2) ∨
      (¬ LegalMove obs.previousState (targetFor obs).1 ∧
        (deriveWorkspaceDecision obs).nextState = obs.previousState ∧
        (deriveWorkspaceDecision obs).reason = .error) := by
  unfold deriveWorkspaceDecision
  by_cases hsame : obs.previousState = (targetFor obs).1
  · left
    simp only [if_pos hsame, and_self, and_true]
    exact .inl hsame.symm
  · simp only [if_neg hsame]
    by_cases hlegal : (evaluateWorkspaceTransition obs.previousState (targetFor obs).1).1 = true
    · left
      simp only [if_pos hlegal, and_self, and_true]
      exact legalMove_iff.mpr hlegal
    · right
      simp only [if_neg hlegal, and_self, and_true]
      exact fun h => hlegal (legalMove_iff.mp h)

lemma derive_legalMove (obs : WorkspaceObservation) :
    LegalMove obs.previousState (deriveWorkspaceDecision obs).nextState := by
  rcases derive_cases obs with ⟨hlegal, hnext, -⟩ | ⟨-, hnext, -⟩
  · rw [hnext]
    exact hlegal
  · exact .inl hnext

@[simp] lemma derive_executionReady (obs : WorkspaceObservation) :
    (deriveWorkspaceDecision obs).executionReady =
      decide ((deriveWorkspaceDecision obs).nextState = executionReady) := rfl

lemma targetFor_cases (obs : WorkspaceObservation) :
    (targetFor obs).1 ∈ [executionReady, suspended, connected, waitingForLogin, disconnected,
        recovering] ∨
      (targetFor obs).1 = obs.previousState := by
  unfold targetFor
  dsimp only
  repeat' split
  all_goals first | exact .inl (by decide) | exact .inr rfl

lemma conditions_of_target {obs : WorkspaceObservation} (h : (targetFor obs).1 = executionReady) :
    allExecutionConditions obs = true := by
  unfold targetFor at h
  by_contra hno
  rw [if_neg hno] at h
  simp only [List.mem_cons, List.not_mem_nil] at h
  split_ifs at h with _ _ _ _ _ _ _ hheld
  rcases hheld with hheld | hheld | hheld | hheld | hheld <;> simp_all

lemma legalMove_of_ready {obs : WorkspaceObservation} (h : obs.previousState = executionReady) :
    LegalMove obs.previousState (targetFor obs).1 := by
  have htarget : (targetFor obs).1 ∈ [executionReady, suspended, connected, disconnected] := by
    unfold targetFor
    simp only [h, reduceCtorEq, or_self, if_false, List.mem_cons, List.not_mem_nil]
    split_ifs <;> decide
  rw [h]
  revert htarget
  cases (targetFor obs).1 <;> decide

lemma conditions_of_ready {obs : WorkspaceObservation}
    (h : (deriveWorkspaceDecision obs).nextState = executionReady) :
    allExecutionConditions obs = true := by
  rcases derive_cases obs with ⟨-, hnext, -⟩ | ⟨hillegal, hnext, -⟩
  · exact conditions_of_target (hnext.symm.trans h)
  · -- holding the ready state would need an illegal move out of it
    exact absurd (legalMove_of_ready (hnext.symm.trans h)) hillegal

lemma targetFor_of_conditions {obs : WorkspaceObservation} (h : allExecutionConditions obs = true) :
    targetFor obs = (executionReady, .none) := by
  unfold targetFor
  rw [if_pos h]

lemma derive_of_conditions {obs : WorkspaceObservation} (h : allExecutionConditions obs = true) :
    (deriveWorkspaceDecision obs).nextState =
      if LegalMove obs.previousState executionReady then executionReady else obs.previousState := by
  rcases derive_cases obs with ⟨hlegal, hnext, -⟩ | ⟨hillegal, hnext, -⟩
  · rw [targetFor_of_conditions h] at hlegal hnext
    rw [if_pos hlegal, hnext]
  · rw [targetFor_of_conditions h] at hillegal
    rw [if_neg hillegal, hnext]

end HostedWorkspace
end GuvFX
