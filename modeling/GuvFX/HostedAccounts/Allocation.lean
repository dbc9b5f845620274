/-
# Allocation of nodes

A workspace is bound to a node that has room for one account more.  The allocation locks the workspace and
the nodes, looks for the first node that is fit, and binds; when that is committed it prepares the slot on
the host, if this is wanted, and lets the workspace wait for the login of the customer.

The nodes, the certified ceilings of the hosts and the guard of the hosts are fixed.  Every allocation
locks all the nodes to which it may bind, so that allocations take turns from the look to the commit.  A
pass of the clean-up holds the lock of its scheduler, so that there is one at a time.
-/
import GuvFX.HostedAccounts.Removal
import Mathlib.Data.Finset.Card

namespace GuvFX
namespace HostedAccounts
namespace Allocation

open Runs
open HostedWorkspace (WorkspaceObservation deriveWorkspaceDecision)

/-! ### Nodes and hosts -/

inductive NodeStatus
  | active | draining | offline | disabled
  deriving DecidableEq, Repr

/-- An execution host, or a logical part of one. -/
structure TerminalNode where
  hostname : String
  rdpHost : String := ""
  status : NodeStatus := .active
  maxAccounts : ℕ
  deriving DecidableEq, Repr

structure HostCapacity where
  physicalHostKey : String
  maxTotalOccupants : ℕ
  deriving DecidableEq, Repr

/-- What is fixed. -/
structure Setting where
  nodes : Table TerminalNode
  /-- In the order of their keys. -/
  hostCapacities : List HostCapacity := []
  /-- The folding of the case of a host name. -/
  fold : String → String
  hostCapacityGuard : Bool := false
  customerZero : List ℕ := [1]
  forbiddenHosts : List String := []

/-- The accounts that occupy a node: those that are active there, and those whose workspace is bound to
it, unless its clean-up has succeeded. -/
def nodeOccupants (store : Store) (node : ℕ) : Finset ℕ :=
  ((store.accounts.filter fun _ a => a.terminalNode = some node && a.isActive).map Prod.fst).toFinset ∪
    ((store.workspaces.filter fun _ ws => ws.executionNode = some node
      && ws.cleanupState ≠ .succeeded).map fun row => row.2.tradingAccount).toFinset

def nodeOccupantCount (store : Store) (node : ℕ) : ℕ := (nodeOccupants store node).card

def hostKey (σ : Setting) (node : TerminalNode) : String := σ.fold (Text.strip node.rdpHost)

def hostOccupantCount (σ : Setting) (store : Store) (key : String) : ℕ :=
  ((σ.nodes.filter fun _ node => hostKey σ node = key).map fun row =>
    nodeOccupantCount store row.1).sum

def hostCapacityCeiling (σ : Setting) (rdpHost : String) : Option ℕ :=
  let key := Text.strip rdpHost
  if key = "" then none
  else (σ.hostCapacities.find? fun row => σ.fold row.physicalHostKey = σ.fold key).map
    HostCapacity.maxTotalOccupants

/-- What is found out about a node. -/
inductive Verdict
  /-- It is not active, or it is full. -/
  | skipped
  | forbidden | undeliverable | notOperational | hostUnconfigured | hostFull
  | candidate
  deriving DecidableEq, Repr

def hostCapacityBlock (σ : Setting) (store : Store) (node : TerminalNode) : Option Verdict :=
  match hostCapacityCeiling σ node.rdpHost with
  | none => some .hostUnconfigured
  | some ceiling =>
    if ceiling ≤ hostOccupantCount σ store (hostKey σ node) then some .hostFull else none

/-- The nodes that serve Customer Zero, or that are named as forbidden. -/
def forbiddenExecutionNodeIds (σ : Setting) (store : Store) : List ℕ :=
  let served := (store.accounts.filter fun pk _ => σ.customerZero.contains pk).filterMap fun row =>
    row.2.terminalNode
  let bound := (store.workspaces.filter fun _ ws => σ.customerZero.contains ws.tradingAccount).flatMap
    fun row => row.2.executionNode.toList ++ row.2.workspaceNode.toList
  let hosts := (σ.forbiddenHosts.map Text.strip).filter fun host => host ≠ ""
  let named := (σ.nodes.filter fun _ node =>
    hosts.any fun host => σ.fold node.rdpHost = σ.fold host).map Prod.fst
  served ++ bound ++ named

/-! ### The look for a node -/

/-- What a step reads beyond the rows, at the moment it is taken. -/
structure Gates where
  tenantNodeIsolation : Bool := false
  executionPathGate : Bool := false
  /-- Whether the execution path of a node is commissioned. -/
  operational : ℕ → Bool := fun _ => true
  slotPrep : Bool := false
  /-- Why the slot on the host could not be prepared. -/
  prepFailure : Option String := none
  /-- Whether the decision about the state is written. -/
  persists : Bool := true
  openPositions : ℕ := 0
  now : ℤ := 0

def forbiddenNodes (σ : Setting) (gates : Gates) (store : Store) (account : ℕ) : List ℕ :=
  if gates.tenantNodeIsolation && !σ.customerZero.contains account then
    forbiddenExecutionNodeIds σ store
  else []

def examine (σ : Setting) (gates : Gates) (store : Store) (account pk : ℕ) (node : TerminalNode) :
    Verdict :=
  if node.status ≠ .active then .skipped
  else if (forbiddenNodes σ gates store account).contains pk then .forbidden
  else if node.maxAccounts ≤ nodeOccupantCount store pk then .skipped
  else if Text.strip node.rdpHost = "" then .undeliverable
  else if gates.executionPathGate && !σ.customerZero.contains account && !gates.operational pk then
    .notOperational
  else if σ.hostCapacityGuard then (hostCapacityBlock σ store node).getD .candidate
  else .candidate

/-- The first node that is fit, and what was found out about those before it. -/
def scanNodes (verdict : ℕ → TerminalNode → Verdict) : List (ℕ × TerminalNode) →
    Option (ℕ × TerminalNode) × List Verdict
  | [] => (none, [])
  | row :: rows =>
    if verdict row.1 row.2 = .candidate then (some row, [])
    else
      let rest := scanNodes verdict rows
      (rest.1, verdict row.1 row.2 :: rest.2)

/-- Why no node was found. -/
def refusalReason (seen : List Verdict) : String :=
  if .forbidden ∈ seen ∧ .undeliverable ∉ seen ∧ .notOperational ∉ seen ∧ .hostFull ∉ seen
      ∧ .hostUnconfigured ∉ seen then "cz_node_forbidden"
  else if .hostUnconfigured ∈ seen ∧ .hostFull ∉ seen ∧ .undeliverable ∉ seen then
    "host_capacity_unconfigured"
  else if .hostFull ∈ seen ∧ .undeliverable ∉ seen then "host_capacity_exceeded"
  else if .notOperational ∈ seen ∧ .undeliverable ∉ seen then "node_not_execution_operational"
  else if .undeliverable ∈ seen then "node_not_deliverable"
  else "no_node_capacity"

def nodesInOrder (σ : Setting) : List (ℕ × TerminalNode) :=
  σ.nodes.rows.insertionSort fun a b => a.1 ≤ b.1

/-! ### Allocation -/

structure AllocResult where
  ok : Bool
  reason : String
  nodeHostname : String := ""
  deriving DecidableEq, Repr

def HostedMt5Workspace.bindNode (node : ℕ) (ws : HostedMt5Workspace) : HostedMt5Workspace :=
  { ws with
    executionNode := some node
    executionBindingGeneration :=
      if ws.executionNode = some node then ws.executionBindingGeneration
      else ws.executionBindingGeneration + 1
    workspaceNode := some node }

def TradingAccount.routeTo (node : ℕ) (account : TradingAccount) : TradingAccount :=
  { account with terminalNode := some node }

def bindNode (workspace account node : ℕ) (store : Store) : Store :=
  (store.updateAccount account (TradingAccount.routeTo node)).updateWorkspace workspace
    (HostedMt5Workspace.bindNode node)

/-- The workspace after the decision that it waits for a login. -/
def HostedMt5Workspace.advance (ws : HostedMt5Workspace) : HostedMt5Workspace :=
  let observation : WorkspaceObservation :=
    ⟨false, false, false, false, false, false, ws.canonicalState, ws.canonicalReason, none⟩
  let decision := deriveWorkspaceDecision observation
  { ws with
    canonicalState := decision.nextState
    canonicalReason := decision.reason }

/-- The operations that take several steps. -/
inductive Kind
  | allocate (workspace : ℕ)
  /-- A removal, with the copy of the account that it was given. -/
  | remove (pk : ℕ) (account : TradingAccount)
  deriving DecidableEq, Repr

inductive Phase
  | opening
  | binding (account node : ℕ) (hostname : String) (needsAdvance : Bool)
  /-- Out of the transaction, about to prepare the slot. -/
  | preparing (reason hostname : String)
  | advancing (reason hostname : String)
  /-- The removal has passed its gate; the copy of the workspace. -/
  | removing (workspace : Option (ℕ × HostedMt5Workspace))
  | done (result : AllocResult)
  deriving DecidableEq, Repr

structure Call where
  kind : Kind
  phase : Phase := .opening
  /-- Whether the call has bound its workspace; the program does not keep it. -/
  bound : Bool := false
  deriving DecidableEq, Repr

structure State where
  estate : Estate
  nodesLock : Option (ℕ × ℕ) := none
  calls : ℕ → Option Call := fun _ => none
  /-- What is left of the pass of the clean-up that is under way. -/
  cycle : Option (List Attempt) := none

def afterTransaction (needsAdvance : Bool) (reason hostname : String) : Phase :=
  if needsAdvance then .preparing reason hostname else .done ⟨true, reason, hostname⟩

/-- The first step of an allocation: what is bound stays, and otherwise a node is looked for, under the
locks. -/
def openAllocation (σ : Setting) (k workspace : ℕ) (gates : Gates) (s : State) : State × Phase :=
  match s.estate.store.workspace workspace with
  | none => (s, .done ⟨false, "does_not_exist", ""⟩)
  | some (ws, _) =>
    let account := ws.tradingAccount
    let needsAdvance := ws.canonicalState = .provisioning
    if s.nodesLock.any fun lock => lock.2 = workspace then (s, .opening)
    else
      match ws.executionNode with
      | some node =>
        if (forbiddenNodes σ gates s.estate.store account).contains node then
          (s, .done ⟨false, "cz_node_forbidden", ""⟩)
        else
          let hostname := ((σ.nodes.get node).map TerminalNode.hostname).getD ""
          (s, afterTransaction needsAdvance "already_bound" hostname)
      | none =>
        if s.nodesLock.isSome then (s, .opening)
        else
          let scan := scanNodes (examine σ gates s.estate.store account) (nodesInOrder σ)
          match scan.1 with
          | none => (s, .done ⟨false, refusalReason scan.2, ""⟩)
          | some (pk, node) =>
            ({ s with nodesLock := some (k, workspace) },
              .binding account pk node.hostname needsAdvance)

/-- The last step of the transaction of an allocation.  The writers of the binding refuse a forbidden
node once more. -/
def commitAllocation (σ : Setting) (workspace account node : ℕ) (hostname : String)
    (needsAdvance : Bool) (gates : Gates) (s : State) : State × Phase :=
  let free := { s with nodesLock := none }
  if (forbiddenNodes σ gates s.estate.store account).contains node then
    (free, .done ⟨false, "cross_tenant_co_residency_forbidden", ""⟩)
  else
    let estate := { s.estate with store := bindNode workspace account node s.estate.store }
    ({ free with estate := estate }, afterTransaction needsAdvance "allocated" hostname)

def callStep (σ : Setting) (k : ℕ) (s : State) (call : Call) (gates : Gates) : State × Phase :=
  match call.kind, call.phase with
  | .allocate workspace, .opening => openAllocation σ k workspace gates s
  | .allocate workspace, .binding account node hostname needsAdvance =>
    commitAllocation σ workspace account node hostname needsAdvance gates s
  | .allocate _, .preparing reason hostname =>
    match gates.slotPrep, gates.prepFailure with
    | true, some failure => (s, .done ⟨false, failure, hostname⟩)
    | _, _ => (s, .advancing reason hostname)
  | .allocate workspace, .advancing reason hostname =>
    if gates.persists then
      let store := s.estate.store.updateWorkspace workspace HostedMt5Workspace.advance
      ({ s with estate := { s.estate with store := store } }, .done ⟨true, reason, hostname⟩)
    else (s, .done ⟨false, "advance_failed", hostname⟩)
  | .remove pk account, .opening =>
    if account.disconnectedAt.isSome then (s, .done ⟨true, "already", ""⟩)
    else if 0 < gates.openPositions then (s, .done ⟨false, "open_trades", ""⟩)
    else (s, .removing (workspaceOf s.estate.store pk))
  | .remove pk _, .removing workspace =>
    let out := removeTransaction pk workspace gates.now s.estate
    ({ s with estate := out.1 }, .done ⟨out.2.removed, "removed", ""⟩)
  | _, phase => (s, phase)

/-- The next step of the pass of the clean-up. -/
def cycleStep (gates : CleanupGates) (s : State) : State :=
  match s.cycle with
  | none => s
  | some [] => { s with cycle := none }
  | some (attempt :: rest) =>
    match attempt.phase with
    | .done _ _ => { s with cycle := some rest }
    | _ =>
      let out := attemptStep gates attempt s.estate
      { s with
        estate := out.1
        cycle := some ({ attempt with phase := out.2 } :: rest) }

/-- What can happen next. -/
inductive Action
  | allocate (k workspace : ℕ)
  | remove (k pk : ℕ)
  /-- The next step of a call. -/
  | go (k : ℕ) (gates : Gates)
  | die (k : ℕ)
  /-- A pass of the clean-up begins, if there is none. -/
  | cycle (now : ℤ)
  | goCycle (gates : CleanupGates)
  | dieCycle
  /-- What a finished clean-up has held is given back by hand. -/
  | reclaim (workspace : ℕ)
  /-- Other writers change an account or a workspace, but not what occupies a node. -/
  | otherAccount (pk : ℕ) (account : TradingAccount)
  | otherWorkspace (pk : ℕ) (ws : HostedMt5Workspace)

def changedAccount (account old : TradingAccount) : TradingAccount :=
  { account with
    terminalNode := old.terminalNode
    isActive := old.isActive
    disconnectedAt := old.disconnectedAt }

def changedWorkspace (ws old : HostedMt5Workspace) : HostedMt5Workspace :=
  { ws with
    tradingAccount := old.tradingAccount
    executionNode := old.executionNode
    workspaceNode := old.workspaceNode
    cleanupState := old.cleanupState }

def binds (call : Call) (phase' : Phase) : Bool :=
  match call.phase, phase' with
  | .binding .., .done result => result.ok
  | .binding .., _ => true
  | _, _ => false

def step (σ : Setting) (s : State) (a : Action) : State :=
  match a with
  | .allocate k workspace =>
    match s.calls k with
    | some _ => s
    | none => { s with calls := Function.update s.calls k (some { kind := .allocate workspace }) }
  | .remove k pk =>
    match s.calls k, s.estate.store.accounts.get pk with
    | none, some account =>
      { s with calls := Function.update s.calls k (some { kind := .remove pk account }) }
    | _, _ => s
  | .go k gates =>
    match s.calls k with
    | none => s
    | some call =>
      let out := callStep σ k s call gates
      let call' : Call :=
        { call with
          phase := out.2
          bound := call.bound || binds call out.2 }
      { out.1 with calls := Function.update s.calls k (some call') }
  | .die k =>
    { s with
      nodesLock := s.nodesLock.filter fun lock => lock.1 ≠ k
      calls := Function.update s.calls k none }
  | .cycle now =>
    match s.cycle with
    | some _ => s
    | none => { s with cycle := some (selectCleanups now s.estate.store) }
  | .goCycle gates => cycleStep gates s
  | .dieCycle => { s with cycle := none }
  | .reclaim workspace =>
    { s with estate := { s.estate with store := reclaimNodes workspace s.estate.store } }
  | .otherAccount pk account =>
    let store := s.estate.store.updateAccount pk (changedAccount account)
    { s with estate := { s.estate with store := store } }
  | .otherWorkspace pk ws =>
    let store := s.estate.store.updateWorkspace pk (changedWorkspace ws)
    { s with estate := { s.estate with store := store } }

/-- Before any call. -/
def start (estate : Estate) : State where
  estate := estate

end Allocation
end HostedAccounts
end GuvFX
