/-
# The queue of execution jobs

Workers poll the queue: the oldest pending job of the first type that has one is locked, checked
once more, and handed out with a lease.  The worker reports the outcome later.  The monitor chain
looks at running jobs whose lease has expired: it fails those that can be repeated, and settles an
order by the trade that the broker reports for it.
-/
import Mathlib.Algebra.Order.Field.Rat
import Mathlib.Data.List.Sort
import GuvFX.TradeCopier.Consumer

namespace GuvFX
namespace JobQueue

open Consumer (JobType JobStatus)

/-! ### Records -/

inductive JsonValue where
  | bool (b : Bool)
  | str (s : String)
  /-- The text of any other value. -/
  | raw (text : String)
  deriving DecidableEq, Repr

/-- What a worker may store with the outcome of a job. -/
abbrev JobResult := List (String × JsonValue)

structure JobPayload where
  planId : Option ℕ := none
  legIndex : Option ℕ := none
  breakevenSync : Bool := false
  windowsUsername : String := ""
  triggerJobId : Option ℕ := none
  autoSync : Bool := false
  deriving DecidableEq, Repr

structure ExecutionJob where
  jobType : JobType
  accountId : ℕ
  strategyId : Option ℕ := none
  assignmentId : Option ℕ := none
  terminalNodeId : Option ℕ := none
  payload : JobPayload := {}
  status : JobStatus := .pending
  workerId : String := ""
  result : JobResult := []
  errorMessage : String := ""
  createdAt : Time
  startedAt : Option Time := none
  finishedAt : Option Time := none
  leaseExpiresAt : Option Time := none
  recovered : Bool := false
  recoveryReason : String := ""
  hostedWorkspaceUuid : String := ""
  createdBy : Option ℕ := none
  deriving DecidableEq, Repr

inductive NodeStatus where
  | active
  | draining
  | offline
  | disabled
  deriving DecidableEq, Repr

structure TerminalNode where
  hostname : String
  status : NodeStatus
  deriving DecidableEq, Repr

structure Trade where
  accountId : ℕ
  comment : String
  ticket : String
  openTime : Time
  deriving DecidableEq, Repr

structure WorkerIdentity where
  workerId : String
  isActive : Bool
  authorizedNodes : List String := []
  shadowWorker : Bool := false
  partialCloseWorker : Bool := false
  deriving DecidableEq, Repr

/-- What the queue reads besides its jobs. -/
structure Env where
  /-- Why no order job may be created now, if so. -/
  killReason : Option String
  nodes : Table TerminalNode
  trades : Table Trade
  executionGateEnabled : Bool
  /-- Why the gate of the broker validation refuses a dispatch for an account, if so. -/
  dispatchGateRefusal : ℕ → Option String
  pinSubsystemEnabled : Bool
  hostedClaimRefusal : ExecutionJob → Bool → Option String
  windowsUsername : ℕ → String
  leaseTtlSeconds : ℤ
  syncLeaseTtlSeconds : ℤ

def killSwitchBlockedJobTypes : List JobType :=
  [.openTrade, .placeOrder, .placeTestOrder, .placeOrderShadow]

def brokerGateBlockedJobTypes : List JobType := [.openTrade, .placeOrder, .placeTestOrder]

def identityPinJobTypes : List JobType :=
  [.openTrade, .placeOrder, .placeTestOrder, .closeTrade, .modifyPosition, .partialCloseTrade]

/-- The identity that all bridges without one of their own share. -/
def legacyWorkerId : String := "legacy-worker"

/-! ### Claims -/

/-- The request for a job. -/
structure Query where
  workerId : String := "mt5-worker"
  accountId : Option ℕ := none
  jobType : Option JobType := none
  /-- Several types by priority, which win over the single one. -/
  jobTypes : Option (List JobType) := none
  deriving DecidableEq, Repr

def requestedTypes (query : Query) : List JobType :=
  match query.jobTypes, query.jobType with
  | some types, _ => types
  | none, some type => [type]
  | none, none => [.syncPositions]

def typesToTry (env : Env) (query : Query) : List JobType :=
  if env.killReason.isSome then
    (requestedTypes query).filter fun type => type ∉ killSwitchBlockedJobTypes
  else requestedTypes query

def workerAuthorizedNodes : Option WorkerIdentity → List String
  | none => []
  | some worker =>
    if worker.isActive ∧ worker.workerId ≠ legacyWorkerId then worker.authorizedNodes else []

def activeNodeIds (env : Env) (hostnames : List String) : List ℕ :=
  (env.nodes.filter fun _ node => node.hostname ∈ hostnames ∧ node.status = .active).map Prod.fst

def claimable (env : Env) (worker : Option WorkerIdentity) (query : Query) (job : ExecutionJob) :
    Bool :=
  let nodes := workerAuthorizedNodes worker
  job.status = .pending ∧ query.accountId.all (· = job.accountId) ∧
    (worker.any (·.shadowWorker) ∨ job.jobType ≠ .placeOrderShadow) ∧
    job.jobType ≠ .partialCloseTrade ∧
    if nodes = [] then job.terminalNodeId = none
    else job.terminalNodeId.any (· ∈ activeNodeIds env nodes)

/-- The oldest job of one type that nobody else has locked. -/
def oldestUnlocked (env : Env) (worker : Option WorkerIdentity) (query : Query)
    (jobs : Table ExecutionJob) (locked : ℕ → Bool) (type : JobType) : Option (ℕ × ExecutionJob) :=
  let rows := jobs.filter fun _ job => claimable env worker query job ∧ job.jobType = type
  (rows.insertionSort fun e e' => e.2.createdAt ≤ e'.2.createdAt).find? fun e => !locked e.1

def selectJob (env : Env) (worker : Option WorkerIdentity) (query : Query)
    (jobs : Table ExecutionJob) (locked : ℕ → Bool) : Option (ℕ × ExecutionJob) :=
  (typesToTry env query).findSome? (oldestUnlocked env worker query jobs locked)

/-- Why a selected job is failed instead of being handed out, if so. -/
def dispatchRefusal (env : Env) (worker : Option WorkerIdentity) (job : ExecutionJob) :
    Option String :=
  let gate :=
    if env.executionGateEnabled ∧ job.jobType ∈ brokerGateBlockedJobTypes then
      (env.dispatchGateRefusal job.accountId).map
        ("broker dispatch gate refused at claim: " ++ ·)
    else none
  let hosted :=
    if job.jobType ∈ identityPinJobTypes then
      (env.hostedClaimRefusal job !(workerAuthorizedNodes worker).isEmpty).map
        ("hosted claim entitlement refused: " ++ ·)
    else none
  gate.or hosted

def leaseTtl (env : Env) (job : ExecutionJob) : ℤ :=
  if job.jobType = .syncPositions ∧ job.payload.breakevenSync then env.syncLeaseTtlSeconds
  else env.leaseTtlSeconds

def claimJob (env : Env) (now : Time) (worker : Option WorkerIdentity) (query : Query)
    (job : ExecutionJob) : ExecutionJob :=
  match dispatchRefusal env worker job with
  | some errorMessage => { job with status := .failed, errorMessage, finishedAt := some now }
  | none =>
    { job with
      status := .running
      workerId := query.workerId
      startedAt := some now
      leaseExpiresAt := some (now + leaseTtl env job) }

inductive Response where
  | forbidden
  | noJobs
  | job (k : ℕ)
  deriving DecidableEq, Repr

/-- One claim, in one transaction. -/
def nextJob (env : Env) (now : Time) (worker : Option WorkerIdentity) (query : Query)
    (locked : ℕ → Bool) (jobs : Table ExecutionJob) : Table ExecutionJob × Response :=
  if worker.any (·.partialCloseWorker) then (jobs, .forbidden)
  else
    match selectJob env worker query jobs locked with
    | none => (jobs, .noJobs)
    | some (k, job) =>
      (jobs.modify k fun _ => claimJob env now worker query job,
        if (dispatchRefusal env worker job).isSome then .noJobs else .job k)

/-! ### Reports -/

/-- What a worker sends; the status may be any text. -/
structure Report where
  status : Option JobStatus
  result : JobResult := []
  errorMessage : String := ""
  deriving DecidableEq, Repr

/-- A report that passed the check of its status. -/
structure Outcome where
  status : JobStatus
  isTerminal : status.isTerminal = true
  result : JobResult
  errorMessage : String
  deriving DecidableEq, Repr

def outcomeOf (report : Report) : Option Outcome :=
  match report.status with
  | some .success => some ⟨.success, rfl, report.result, report.errorMessage⟩
  | some .failed => some ⟨.failed, rfl, report.result, report.errorMessage⟩
  | _ => none

def hostedCompletionEntitled (env : Env) (worker : Option WorkerIdentity) (job : ExecutionJob) :
    Bool :=
  match worker with
  | none => true
  | some identity =>
    if env.pinSubsystemEnabled ∧ job.hostedWorkspaceUuid ≠ "" then
      let nodes := if identity.workerId = legacyWorkerId then [] else identity.authorizedNodes
      (job.terminalNodeId.bind env.nodes.get).any fun node => node.hostname ∈ nodes
    else true

/-- Why a completion is refused: 404, 400, 409 and 403. -/
inductive Refusal where
  | notFound
  | invalidStatus
  | notRunning (status : JobStatus)
  | notEntitled
  deriving DecidableEq, Repr

def checkCompletion (env : Env) (worker : Option WorkerIdentity) (jobs : Table ExecutionJob) (k : ℕ)
    (report : Report) : Except Refusal (ExecutionJob × Outcome) :=
  match jobs.get k, outcomeOf report with
  | none, _ => .error .notFound
  | some _, none => .error .invalidStatus
  | some job, some outcome =>
    if job.status ≠ .running then .error (.notRunning job.status)
    else if hostedCompletionEntitled env worker job then .ok (job, outcome)
    else .error .notEntitled

def saveOutcome (jobs : Table ExecutionJob) (k : ℕ) (outcome : Outcome) (now : Time) :
    Table ExecutionJob :=
  jobs.modify k fun job =>
    { job with
      status := outcome.status
      result := outcome.result
      errorMessage := outcome.errorMessage
      finishedAt := some now }

def syncJob (env : Env) (k : ℕ) (job : ExecutionJob) (now : Time) : Option ExecutionJob :=
  let username :=
    if job.payload.windowsUsername ≠ "" then job.payload.windowsUsername
    else env.windowsUsername job.accountId
  if username = "" then none
  else
    some
      { jobType := .syncPositions
        accountId := job.accountId
        strategyId := job.strategyId
        assignmentId := job.assignmentId
        terminalNodeId := job.terminalNodeId
        payload := { windowsUsername := username, triggerJobId := some k, autoSync := true }
        createdAt := now
        createdBy := job.createdBy }

def queueSyncPositionsJob (env : Env) (jobs : Table ExecutionJob) (k : ℕ) (job : ExecutionJob)
    (outcome : Outcome) (now : Time) : Table ExecutionJob :=
  if job.jobType ∈ [.placeTestOrder, .placeOrder] ∧ outcome.status = .success then
    match syncJob env k job now with
    | none => jobs
    | some sync => jobs.insert jobs.fresh sync
  else jobs

/-! ### The monitor chain -/

/-- The two types of jobs that can be repeated. -/
inductive Repeatable where
  | sync
  | modify
  deriving DecidableEq, Repr

def Repeatable.jobType : Repeatable → JobType
  | .sync => .syncPositions
  | .modify => .modifyPosition

def Repeatable.recoveryReason : Repeatable → String
  | .sync => "orphaned SYNC (lease expired, worker recycled) — monitor-chain reclaim"
  | .modify => "orphaned MODIFY_POSITION (lease expired, worker recycled) — monitor-chain reclaim"

def orphans (jobs : Table ExecutionJob) (type : JobType) (now : Time) : List (ℕ × ExecutionJob) :=
  jobs.filter fun _ job =>
    job.status = .running ∧ job.jobType = type ∧ job.leaseExpiresAt.any (· < now)

def updateRunning (jobs : Table ExecutionJob) (k : ℕ) (f : ExecutionJob → ExecutionJob) :
    Table ExecutionJob :=
  jobs.modify k fun job => if job.status = .running then f job else job

/-- Fail the jobs that were read as orphans, as far as they are still running. -/
def reclaimOrphanedJobs (kind : Repeatable) (ids : List ℕ) (now : Time)
    (jobs : Table ExecutionJob) : Table ExecutionJob :=
  ids.foldl (fun table k => updateRunning table k fun job =>
    { job with
      status := .failed
      finishedAt := some now
      recovered := true
      recoveryReason := kind.recoveryReason
      errorMessage := "orphaned: lease expired, worker gone" }) jobs

def orphanedPlaceOrders (jobs : Table ExecutionJob) (now : Time) : List (ℕ × ExecutionJob) :=
  ((orphans jobs .placeOrder now).insertionSort fun e e' => e.1 ≤ e'.1).take 200

def legComment (planId legIndex : ℕ) : String := s!"WAY{planId}L{legIndex}"

def landedTrade (env : Env) (job : ExecutionJob) : Option Trade := do
  let planId ← job.payload.planId
  let legIndex ← job.payload.legIndex
  let trades := env.trades.filter fun _ trade =>
    trade.accountId = job.accountId ∧ trade.comment = legComment planId legIndex
  ((trades.map Prod.snd).insertionSort fun t t' => t'.openTime ≤ t.openTime).head?

/-- Settle an order that has landed; one that has not is left to an operator. -/
def reconcileOrphanedPlaceOrder (env : Env) (now : Time) (jobs : Table ExecutionJob)
    (e : ℕ × ExecutionJob) : Table ExecutionJob :=
  match landedTrade env e.2 with
  | none => jobs
  | some trade =>
    updateRunning jobs e.1 fun job =>
      { job with
        status := .success
        finishedAt := some now
        recovered := true
        recoveryReason := s!"orphaned PLACE_ORDER reconciled to broker ticket {trade.ticket} " ++
          "(order landed; worker recycled before completion)"
        result :=
          [("ok", .bool true), ("reconciled", .bool true), ("ticket", .str trade.ticket)] }

end JobQueue
end GuvFX
