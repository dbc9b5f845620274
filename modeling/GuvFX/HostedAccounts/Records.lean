/-
# The rows of hosted accounts

A hosted account is a broker account with a workspace of its own on an execution node.  The rows below
are what the operations on hosted accounts read and write; the columns that none of them reads are left
out.  Rows are found by a number, and a time is a number as well.
-/
import GuvFX.HostedWorkspace.StateMachine
import GuvFX.Lib.Table
import Mathlib.Data.Int.Notation

namespace GuvFX
namespace HostedAccounts

open HostedWorkspace (WorkspaceLifecycleState WorkspaceReason)

/-! ### Broker servers -/

inductive Environment
  | demo | live
  deriving DecidableEq, Repr

inductive EnvironmentSource
  | catalogue | operator | inferred
  deriving DecidableEq, Repr

structure BrokerServer where
  serverName : String
  environment : Environment
  environmentSource : EnvironmentSource := .inferred
  deriving DecidableEq, Repr

def desiredEnvironment (isDemo : Bool) : Environment := if isDemo then .demo else .live

/-- The environments of an account and of its server disagree. -/
def classificationError (isDemo : Bool) (server : Option BrokerServer) : Bool :=
  server.any fun s => s.environment ≠ desiredEnvironment isDemo

/-! ### Accounts and workspaces -/

def persistentWorkspace : String := "persistent_workspace"

structure TradingAccount where
  user : ℕ
  accountNumber : String := ""
  brokerName : String := ""
  brokerServer : Option ℕ := none
  isDemo : Bool := true
  isActive : Bool := false
  readinessProvider : String := persistentWorkspace
  mt5Instance : Option ℕ := none
  terminalNode : Option ℕ := none
  workspaceConfirmedAt : Option ℤ := none
  ingestCutoverTime : Option ℤ := none
  /-- Set once the account has been removed. -/
  disconnectedAt : Option ℤ := none
  deriving DecidableEq, Repr

/-- The states of the physical clean-up of a removed account. -/
inductive CleanupState
  | notRequired | pending | running | succeeded | failedRetryable
  deriving DecidableEq, Repr

structure HostedMt5Workspace where
  tradingAccount : ℕ
  canonicalState : WorkspaceLifecycleState := .provisioning
  canonicalReason : WorkspaceReason := .none
  projConnected : Option Bool := none
  projAccountMatch : Option Bool := none
  projTradeAllowed : Option Bool := none
  projMarginMode : Option ℤ := none
  lastDecisionAt : Option ℤ := none
  executionEnabled : Bool := false
  autoArmSuppressed : Bool := false
  executionAuthorizedAt : Option ℤ := none
  executionNode : Option ℕ := none
  workspaceNode : Option ℕ := none
  executionBindingGeneration : ℕ := 0
  cleanupState : CleanupState := .notRequired
  cleanupAttempts : ℕ := 0
  cleanupNextRetryAt : Option ℤ := none
  cleanupLastReason : String := ""
  deriving DecidableEq, Repr

def HostedMt5Workspace.canonicalExecutionReady (ws : HostedMt5Workspace) : Bool :=
  ws.canonicalState = .executionReady

def isDemoEnvironment (servers : Table BrokerServer) (account : TradingAccount) : Bool :=
  match account.brokerServer with
  | none => account.isDemo
  | some pk =>
    match servers.get pk with
    | none => false
    | some server => account.isDemo && !classificationError account.isDemo (some server)

def workspaceObservationFreshSeconds : ℤ := 300

/-- Whether the last decision about a workspace is recent.  Times are in seconds. -/
def observationFresh (ws : HostedMt5Workspace) (now : ℤ) : Bool :=
  match ws.lastDecisionAt with
  | none => false
  | some ts => 0 ≤ now - ts ∧ now - ts ≤ workspaceObservationFreshSeconds

end HostedAccounts
end GuvFX
