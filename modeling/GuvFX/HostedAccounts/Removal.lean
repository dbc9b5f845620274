/-
# Removal and clean-up

Removing an account sets its tombstone and queues the physical clean-up of its workspace.  A clean-up
attempt claims the workspace for a while, tears down what is on the host, the runtime with the port of the
endpoint last, and records whether it has succeeded; then the node and the endpoint are given back.

An attempt works with the time of its pass and with the copy of the workspace that the pass has selected.
-/
import Mathlib.Algebra.Order.Ring.Int
import GuvFX.HostedAccounts.Arming
import GuvFX.HostedAccounts.Onboarding
import GuvFX.Lib.Text
import Mathlib.Data.List.Sort

namespace GuvFX
namespace HostedAccounts

open Arming (disarmFrom)

/-! ### Endpoints -/

inductive EndpointState
  | allocated | ready | retired
  deriving DecidableEq, Repr

structure EndpointIdentity where
  windowsUsername : String
  workspaceUuid : String
  runtimePath : String
  expectedLogin : String
  expectedServer : String
  isDemo : Bool
  deriving DecidableEq, Repr

structure HostedExecutionEndpoint where
  workspace : ℕ
  tradingAccount : ℕ
  terminalNode : ℕ
  host : String
  port : ℕ
  baseUrl : String
  identity : EndpointIdentity
  state : EndpointState := .allocated
  lastReason : String := ""
  retiredAt : Option ℤ := none
  deriving DecidableEq, Repr

/-- The rows that removals and clean-ups work on. -/
structure Estate where
  store : Store
  endpoints : Table HostedExecutionEndpoint

def HostedExecutionEndpoint.retire (now : ℤ) (ep : HostedExecutionEndpoint) : HostedExecutionEndpoint :=
  { ep with
    state := .retired
    retiredAt := some now
    lastReason := "endpoint_retired" }

def retireEndpoint (now : ℤ) (workspace : ℕ) (endpoints : Table HostedExecutionEndpoint) :
    Table HostedExecutionEndpoint :=
  match endpoints.first fun _ ep => ep.workspace = workspace && ep.state ≠ .retired with
  | none => endpoints
  | some (pk, _) => endpoints.modify pk (HostedExecutionEndpoint.retire now)

/-! ### Removal -/

structure RemoveResult where
  removed : Bool
  already : Bool
  openPositions : ℕ
  deriving DecidableEq, Repr

def TradingAccount.tombstone (now : ℤ) (account : TradingAccount) : TradingAccount :=
  { account with
    isActive := false
    disconnectedAt := some now }

def HostedMt5Workspace.queueCleanup (now : ℤ) (ws : HostedMt5Workspace) : HostedMt5Workspace :=
  { ws with
    cleanupState := .pending
    cleanupAttempts := 0
    cleanupNextRetryAt := some now
    cleanupLastReason := "queued_on_remove" }

def removeTransaction (pk : ℕ) (copy : Option (ℕ × HostedMt5Workspace)) (now : ℤ) (estate : Estate) :
    Estate × RemoveResult :=
  match estate.store.accounts.get pk with
  | none => (estate, ⟨false, false, 0⟩)
  | some locked =>
    if locked.disconnectedAt.isSome then (estate, ⟨true, true, 0⟩)
    else
      let tombstoned : Estate :=
        { estate with store := estate.store.updateAccount pk (TradingAccount.tombstone now) }
      match copy with
      | none => (tombstoned, ⟨true, false, 0⟩)
      | some (ws, copy) =>
        let write (stored : HostedMt5Workspace) : HostedMt5Workspace :=
          (disarmFrom copy stored).queueCleanup now
        (⟨tombstoned.store.updateWorkspace ws write, retireEndpoint now ws estate.endpoints⟩,
          ⟨true, false, 0⟩)

def workspaceOf (store : Store) (pk : ℕ) : Option (ℕ × HostedMt5Workspace) :=
  store.workspaces.first fun _ ws => ws.tradingAccount = pk

/-! ### Clean-up -/

def CleanupState.active : CleanupState → Bool
  | .pending | .running | .failedRetryable => true
  | _ => false

def leaseSeconds : ℤ := 300

def backoffBaseSeconds : ℤ := 120

def backoffMaxSeconds : ℤ := 3600

def hardMaxPerCycle : ℕ := 12

def backoffSeconds (attempts : ℕ) : ℤ := min backoffMaxSeconds (backoffBaseSeconds * 2 ^ (attempts - 1))

/-- A clean-up may be claimed: it is not finished, and its retry or its lease is due. -/
def HostedMt5Workspace.cleanupDue (now : ℤ) (ws : HostedMt5Workspace) : Bool :=
  ws.cleanupState.active && ws.cleanupNextRetryAt.all fun t => t ≤ now

def HostedMt5Workspace.writeCleanup (state : CleanupState) (reason : String) (nextRetryAt : Option ℤ)
    (ws : HostedMt5Workspace) : HostedMt5Workspace :=
  { ws with
    cleanupState := state
    cleanupLastReason := Text.clip 120 reason
    cleanupNextRetryAt := nextRetryAt }

def HostedMt5Workspace.claim (now : ℤ) (ws : HostedMt5Workspace) : HostedMt5Workspace :=
  { ws with
    cleanupState := .running
    cleanupAttempts := ws.cleanupAttempts + 1
    cleanupLastReason := "running"
    cleanupNextRetryAt := some (now + leaseSeconds) }

def HostedMt5Workspace.releaseNodes (ws : HostedMt5Workspace) : HostedMt5Workspace :=
  { ws with
    executionNode := none
    workspaceNode := none }

/-- The first half of giving back what a workspace has held: the nodes, once its clean-up has succeeded. -/
def reclaimNodes (workspace : ℕ) (store : Store) : Store :=
  store.updateWorkspace workspace fun ws =>
    if ws.cleanupState = .succeeded then ws.releaseNodes else ws

/-- The second half: the endpoint, under the same condition. -/
def reclaimEndpoint (workspace : ℕ) (estate : Estate) : Table HostedExecutionEndpoint :=
  if (estate.store.workspaces.get workspace).any fun ws => ws.cleanupState = .succeeded then
    estate.endpoints.map fun ep =>
      if ep.workspace = workspace ∧ ep.state ≠ .retired then { ep with state := .retired } else ep
  else estate.endpoints

def endpointPort (workspace : ℕ) (endpoints : Table HostedExecutionEndpoint) : ℕ :=
  ((endpoints.first fun _ ep => ep.workspace = workspace).map fun row => row.2.port).getD 0

/-- What a step of an attempt reads beyond the rows, at the moment it is taken. -/
structure CleanupGates where
  openPositions : ℕ := 0
  /-- Whether the executor on the host can be reached. -/
  executor : Bool := true
  /-- The steps of the teardown that fail, with their reasons. -/
  failed : List String := []

inductive AttemptPhase
  | checking
  | claimed (attempts : ℕ)
  | tearing (attempts port : ℕ)
  | finishing (attempts : ℕ) (failed : List String)
  /-- It has succeeded and gives the nodes back, and then the endpoint. -/
  | reclaiming
  | retiring
  | done (outcome reason : String)
  deriving DecidableEq, Repr

/-- An attempt to clean up a workspace, with the time of its pass. -/
structure Attempt where
  workspace : ℕ
  copy : HostedMt5Workspace
  now : ℤ
  phase : AttemptPhase := .checking
  deriving DecidableEq, Repr

/-- Customer Zero. -/
def reservedAccount (pk : ℕ) : Bool := pk < 2

def checkCleanup (gates : CleanupGates) (attempt : Attempt) (store : Store) : Store × AttemptPhase :=
  let account := attempt.copy.tradingAccount
  let write (state : CleanupState) (reason : String) (nextRetryAt : Option ℤ) : Store :=
    store.updateWorkspace attempt.workspace
      (HostedMt5Workspace.writeCleanup state reason nextRetryAt)
  let backoff := backoffSeconds (attempt.copy.cleanupAttempts + 1)
  if reservedAccount account then
    (write .notRequired "reserved_account" none, .done "skipped" "reserved_account")
  else if ((store.accounts.get account).bind TradingAccount.disconnectedAt).isNone then
    (write .failedRetryable "not_tombstoned" (some (attempt.now + backoffMaxSeconds)),
      .done "skipped" "not_tombstoned")
  else if 0 < gates.openPositions then
    (write .failedRetryable "open_positions" (some (attempt.now + backoff)),
      .done "skipped" "open_positions")
  else if !gates.executor then
    (write .failedRetryable "no_executor" (some (attempt.now + backoff)), .done "retry" "no_executor")
  else if (store.workspaces.get attempt.workspace).any (HostedMt5Workspace.cleanupDue attempt.now) then
    (store.updateWorkspace attempt.workspace (HostedMt5Workspace.claim attempt.now),
      .claimed (attempt.copy.cleanupAttempts + 1))
  else (store, .done "skipped" "lost_claim")

def attemptStep (gates : CleanupGates) (attempt : Attempt) (estate : Estate) : Estate × AttemptPhase :=
  match attempt.phase with
  | .checking =>
    let out := checkCleanup gates attempt estate.store
    ({ estate with store := out.1 }, out.2)
  | .claimed attempts => (estate, .tearing attempts (endpointPort attempt.workspace estate.endpoints))
  | .tearing attempts _ => (estate, .finishing attempts gates.failed)
  | .finishing attempts failed =>
    let write (state : CleanupState) (reason : String) (nextRetryAt : Option ℤ) : Estate :=
      { estate with
        store := estate.store.updateWorkspace attempt.workspace
          (HostedMt5Workspace.writeCleanup state reason nextRetryAt) }
    if failed = [] then (write .succeeded "cleaned" none, .reclaiming)
    else
      (write .failedRetryable (Text.clip 120 (";".intercalate failed))
        (some (attempt.now + backoffSeconds attempts)), .done "retry" "step_failed")
  | .reclaiming =>
    ({ estate with store := reclaimNodes attempt.workspace estate.store }, .retiring)
  | .retiring =>
    ({ estate with endpoints := reclaimEndpoint attempt.workspace estate }, .done "succeeded" "cleaned")
  | .done outcome reason => (estate, .done outcome reason)

/-- The order in which a pass takes the workspaces up: by the time of their retry, those without one
last. -/
def retryBefore (a b : ℕ × HostedMt5Workspace) : Bool :=
  match a.2.cleanupNextRetryAt, b.2.cleanupNextRetryAt with
  | _, none => true
  | none, some _ => false
  | some s, some t => s ≤ t

/-- What a pass selects: the workspaces of removed accounts whose clean-up is due. -/
def selectCleanups (now : ℤ) (store : Store) : List Attempt :=
  let due := store.workspaces.filter fun _ ws =>
    ((store.accounts.get ws.tradingAccount).bind TradingAccount.disconnectedAt).isSome
      && ws.cleanupDue now
  ((due.insertionSort fun a b => retryBefore a b).take hardMaxPerCycle).map fun row =>
    { workspace := row.1, copy := row.2, now := now }

end HostedAccounts
end GuvFX
