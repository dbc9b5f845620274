/-
# The writer of the state of a workspace

One function writes the canonical state of a workspace, the rows of its history and the events of its
lifecycle; an observation is ingested by reading the state, deciding outside any lock, and handing the
decision to the writer, which reads the row again under its lock.  The interleavings of any number of
such calls are the runs of a system whose steps are: a workspace is created, a call reads and decides,
a call writes, a call dies.
-/
import Mathlib.Algebra.Order.Ring.Nat
import GuvFX.HostedWorkspace.StateMachine
import GuvFX.Lib.Journal
import GuvFX.Lib.Rows
import GuvFX.Lib.Runs
import GuvFX.Lib.Table
import GuvFX.Lib.Text

namespace GuvFX
namespace HostedWorkspace

/-! ### Rows -/

abbrev WorkspaceUuid := { s : String // s.length = 36 }

/-- A workspace, with the fields that the writer reads and writes. -/
structure HostedMt5Workspace where
  workspaceUuid : WorkspaceUuid
  tradingAccountId : ℕ
  canonicalState : WorkspaceLifecycleState := .provisioning
  canonicalReason : WorkspaceReason := .none
  observationVersion : ℕ := 0
  decisionVersion : ℕ := 0
  lastDecisionAt : Option ℕ := none
  lastTransitionAt : Option ℕ := none
  projProcessRunning : Option Bool := none
  projIpcAvailable : Option Bool := none
  projConnected : Option Bool := none
  projAccountMatch : Option Bool := none
  projTradeAllowed : Option Bool := none
  projExecutionReady : Option Bool := none
  projMarginMode : Option Int := none
  lastCorrelationId : String := ""
  lastReason : String := ""
  brokerEverMatched : Bool := false
  deriving DecidableEq, Repr

structure WorkspaceTransition where
  workspace : ℕ
  fromState : WorkspaceLifecycleState
  toState : WorkspaceLifecycleState
  reason : WorkspaceReason
  observationVersion : ℕ
  decisionVersion : ℕ
  stateChanged : Bool
  executionReadyChanged : Bool
  telemetryEvent : Option WorkspaceEvent
  source : String
  correlationId : String
  dedupeKey : String
  deriving DecidableEq, Repr

def eventMeta : WorkspaceEvent → String × String × WorkspaceLifecycleState
  | .created => ("RUNTIME", "INFO", .provisioning)
  | .waitingForLogin => ("CONNECTIVITY", "INFO", .waitingForLogin)
  | .connected => ("CONNECTIVITY", "INFO", .connected)
  | .executionReady => ("EXECUTION", "INFO", .executionReady)
  | .disconnected => ("CONNECTIVITY", "WARNING", .disconnected)
  | .recovering => ("RUNTIME", "WARNING", .recovering)
  | .executionPaused => ("EXECUTION", "WARNING", .suspended)

structure OperationalEvent where
  category : String
  eventType : String
  severity : String
  status : String
  reasonCode : String
  summary : String
  account : ℕ
  source : String
  correlationId : String
  stateVersion : ℕ
  metadata : List (String × String)
  dedupKey : String
  deriving DecidableEq, Repr

structure Database where
  workspaces : Table HostedMt5Workspace := .empty
  transitions : Rows WorkspaceTransition WorkspaceTransition.dedupeKey := .empty
  events : List OperationalEvent := []

def Database.transitionsOf (db : Database) (pk : ℕ) : List WorkspaceTransition :=
  db.transitions.rows.filter fun r => r.workspace = pk

/-- A new workspace, under the next key. -/
def Database.create (db : Database) (uuid : WorkspaceUuid) (tradingAccountId : ℕ) : Database :=
  let workspace : HostedMt5Workspace :=
    { workspaceUuid := uuid, tradingAccountId := tradingAccountId }
  { db with workspaces := db.workspaces.insert db.workspaces.fresh workspace }

/-! ### The writer -/

inductive PersistStatus
  | applied | idempotent | rejectedStale | rejectedIllegal | rejectedInvalid
  deriving DecidableEq, Repr

/-- What the writer did. -/
structure PersistResult where
  status : PersistStatus
  canonicalState : WorkspaceLifecycleState
  canonicalReason : WorkspaceReason
  observationVersion : ℕ
  decisionVersion : ℕ
  transitionCreated : Bool
  telemetryEmitted : Bool
  detail : String := ""
  deriving DecidableEq, Repr

inductive Version
  | int (n : Int)
  | bool (b : Bool)
  | other
  deriving DecidableEq, Repr

def maxVersion : ℕ := 2 ^ 63 - 1

def coerceVersion : Version → Option ℕ
  | .int n => if 1 ≤ n ∧ n ≤ maxVersion then some n.toNat else none
  | .bool _ | .other => none

/-- A workspace in the memory of a caller; it has a key when it has been saved. -/
structure Instance where
  pk : Option ℕ
  row : HostedMt5Workspace
  deriving DecidableEq, Repr

/-- The key under which a decision is recorded once. -/
def dedupeKey (uuid : WorkspaceUuid) (version : ℕ) (target : WorkspaceLifecycleState)
    (reason : WorkspaceReason) : String :=
  Text.clip 200 (uuid.val ++ ":" ++ toString version ++ ":" ++ target.value ++ ":" ++ reason.value)

/-- What every accepted decision writes to the row. -/
def HostedMt5Workspace.refresh (locked : HostedMt5Workspace) (version : ℕ)
    (observation : WorkspaceObservation) (execReady : Bool) (corr : String) (now : ℕ) :
    HostedMt5Workspace :=
  { locked with
    observationVersion := version
    projProcessRunning := some observation.processRunning
    projIpcAvailable := some observation.ipcAvailable
    projConnected := some observation.connected
    projAccountMatch := some observation.accountMatch
    projTradeAllowed := some observation.tradeAllowed
    projExecutionReady := some execReady
    projMarginMode := observation.marginMode
    lastCorrelationId := corr
    lastDecisionAt := some now
    lastReason := ""
    -- set once: the first time the terminal is connected to the right account
    brokerEverMatched :=
      locked.brokerEverMatched || (observation.connected && observation.accountMatch) }

def transitionEvent (workspace : HostedMt5Workspace) (event : WorkspaceEvent)
    (target : WorkspaceLifecycleState) (reason : WorkspaceReason) (corr src key : String) :
    OperationalEvent :=
  let (category, severity, canonical) := eventMeta event
  { category := category
    eventType := event.value
    severity := severity
    status := canonical.value
    reasonCode := reason.value
    summary := "workspace " ++ target.value
    account := workspace.tradingAccountId
    source := src
    correlationId := corr
    stateVersion := workspace.decisionVersion
    metadata := [("workspace_uuid", workspace.workspaceUuid.val), ("canonical_state", canonical.value),
      ("to_state", target.value), ("correlation_id", corr)]
    dedupKey := key }

def recordEvent (recorder : Bool) (events : List OperationalEvent) (event : OperationalEvent) :
    List OperationalEvent × Bool :=
  if !recorder then (events, false)
  else if events.any fun e => e.dedupKey = event.dedupKey then (events, true)
  else (events ++ [event], true)

/-- The part of the writer after its gates. -/
def applyDecision (db : Database) (pk : ℕ) (locked : HostedMt5Workspace) (version : ℕ)
    (observation : WorkspaceObservation) (decision : WorkspaceDecision) (corr src : String)
    (now : ℕ) (recorder : Bool) : Database × PersistResult :=
  let target := decision.nextState
  let newReason := decision.reason
  let stateChanged : Bool := target ≠ locked.canonicalState
  let reasonChanged : Bool := newReason ≠ locked.canonicalReason
  let execReadyChanged : Bool := (locked.projExecutionReady == some true) ≠ decision.executionReady
  let refreshed := locked.refresh version observation decision.executionReady corr now
  if stateChanged || reasonChanged || execReadyChanged then
    let saved := { refreshed with
      canonicalState := target
      canonicalReason := newReason
      decisionVersion := locked.decisionVersion + 1
      lastTransitionAt := if stateChanged then some now else locked.lastTransitionAt }
    let key := dedupeKey locked.workspaceUuid version target newReason
    let row : WorkspaceTransition :=
      { workspace := pk
        fromState := locked.canonicalState
        toState := target
        reason := newReason
        observationVersion := version
        decisionVersion := saved.decisionVersion
        stateChanged := stateChanged
        executionReadyChanged := execReadyChanged
        telemetryEvent := if stateChanged then decision.telemetryEvent else none
        source := src
        correlationId := corr
        dedupeKey := key }
    let transitionCreated := (db.transitions.get key).isNone
    let (events, telemetryEmitted) :=
      match row.telemetryEvent with
      | some event =>
        if transitionCreated then
          recordEvent recorder db.events (transitionEvent saved event target newReason corr src key)
        else (db.events, false)
      | none => (db.events, false)
    ({ workspaces := db.workspaces.modify pk fun _ => saved
       transitions := db.transitions.insertOrIgnore row
       events := events },
      { status := .applied
        canonicalState := target
        canonicalReason := newReason
        observationVersion := version
        decisionVersion := saved.decisionVersion
        transitionCreated := transitionCreated
        telemetryEmitted := telemetryEmitted })
  else
    ({ db with workspaces := db.workspaces.modify pk fun _ => refreshed },
      { status := .idempotent
        canonicalState := locked.canonicalState
        canonicalReason := locked.canonicalReason
        observationVersion := version
        decisionVersion := locked.decisionVersion
        transitionCreated := false
        telemetryEmitted := false })

/-- The result of a refusal, which reports what is stored. -/
def refused (status : PersistStatus) (row : HostedMt5Workspace) (detail : String) : PersistResult :=
  { status := status
    canonicalState := row.canonicalState
    canonicalReason := row.canonicalReason
    observationVersion := row.observationVersion
    decisionVersion := row.decisionVersion
    transitionCreated := false
    telemetryEmitted := false
    detail := detail }

/-- Write a decision, or refuse it.  There is no result when the row is gone, which raises. -/
def persistWorkspaceDecision (db : Database) (workspace : Instance)
    (observation : WorkspaceObservation) (decision : WorkspaceDecision) (observationVersion : Version)
    (correlationId source : String) (now : ℕ) (recorder : Bool) : Option (Database × PersistResult) :=
  match coerceVersion observationVersion, workspace.pk with
  | _, none => some (db, refused .rejectedInvalid workspace.row "unsaved_workspace")
  | none, some _ => some (db, refused .rejectedInvalid workspace.row "invalid_observation_version")
  | some version, some pk =>
    let corr := Text.clip 128 correlationId
    let src := Text.clip 64 (if source = "" then "hosted_workspace.persistence" else source)
    match db.workspaces.get pk with
    | none => none
    | some locked =>
      if version ≤ locked.observationVersion then
        some (db, refused .rejectedStale locked ("version " ++ toString version ++ " <= stored "
          ++ toString locked.observationVersion))
      -- the decision was made for a state that may be gone: the move is checked from the locked one
      else if decision.nextState ≠ locked.canonicalState ∧
          (evaluateWorkspaceTransition locked.canonicalState decision.nextState).1 = false then
        some (db, refused .rejectedIllegal locked ("illegal " ++ locked.canonicalState.value ++ "->"
          ++ decision.nextState.value))
      else some (applyDecision db pk locked version observation decision corr src now recorder)

/-! ### Ingesting an observation -/

structure Call where
  workspace : Instance
  observation : WorkspaceObservation
  observationVersion : Version
  correlationId : String
  source : String
  deriving DecidableEq, Repr

/-- The observation with the state it is decided against: the stored one, and that of the copy in
memory when there is no row. -/
def withPremise (db : Database) (workspace : Instance) (observation : WorkspaceObservation) :
    WorkspaceObservation :=
  let stored := (workspace.pk.bind db.workspaces.get).getD workspace.row
  { observation with
    previousState := stored.canonicalState
    previousReason := stored.canonicalReason }

def Call.persist (call : Call) (db : Database) (now : ℕ) (recorder : Bool) :
    Option (Database × PersistResult) :=
  persistWorkspaceDecision db call.workspace call.observation
    (deriveWorkspaceDecision call.observation) call.observationVersion call.correlationId call.source
    now recorder

/-! ### The system -/

structure State where
  db : Database := {}
  calls : ℕ → Option Call := fun _ => none

/-- What can happen next.  The flag of an ingestion says whether the subsystem is switched on, and the
one of a write whether its event can be recorded. -/
inductive Action
  | create (uuid : WorkspaceUuid) (tradingAccountId : ℕ)
  | ingest (c : ℕ) (enabled : Bool) (workspace : Instance) (observation : WorkspaceObservation)
      (observationVersion : Version) (correlationId source : String)
  | persist (c : ℕ) (now : ℕ) (recorder : Bool)
  | crash (c : ℕ)
  deriving DecidableEq, Repr

def State.endCall (s : State) (c : ℕ) : State :=
  { s with calls := fun c' => if c' = c then none else s.calls c' }

def outcome (s : State) : Action → Option (Database × PersistResult)
  | .persist c now recorder => (s.calls c).bind fun call => call.persist s.db now recorder
  | .create .. | .ingest .. | .crash _ => none

def step (s : State) (a : Action) : State :=
  match a with
  | .create uuid tradingAccountId =>
    if s.db.workspaces.rows.any fun e => e.2.workspaceUuid = uuid then s
    else { s with db := s.db.create uuid tradingAccountId }
  | .ingest c enabled workspace observation version correlationId source =>
    if enabled && (s.calls c).isNone then
      { s with calls := fun c' =>
        if c' = c then some ⟨workspace, withPremise s.db workspace observation, version, correlationId,
          source⟩
        else s.calls c' }
    else s
  | .persist c _ _ =>
    match outcome s a with
    | some (db, _) => { s.endCall c with db := db }
    | none => s.endCall c
  | .crash c => s.endCall c

end HostedWorkspace
end GuvFX
