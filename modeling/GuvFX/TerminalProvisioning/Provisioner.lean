/-
# The provisioner and the pool of runtimes

A job drives one runtime through its states.  A worker claims the job under a lease, reads the runtime,
and takes one step after the other: it writes a transition, or it asks the agent for a remote step.  An
operator reserves a slot of the pool, gives one back, or quarantines a runtime.  All of them are calls
that run side by side; each carries out a list of tasks, one transaction or one remote step at a time,
with the state of the runtime as it has last seen it.

A transition locks the row of the runtime and does not look at the state that it replaces.  Only a
reservation takes the lock of the pool, and keeps it, with the lock of its row, until it has written.
-/
import GuvFX.Lib.Locks
import GuvFX.Lib.Runs
import GuvFX.Lib.Table
import GuvFX.TerminalProvisioning.Runtime

namespace GuvFX
namespace TerminalProvisioning

open Text (clip)

/-! ### Jobs and calls -/

inductive Op where
  | provision
  | start
  | stop
  | deprovision
  deriving DecidableEq, Repr

inductive JobStatus where
  | queued
  | running
  | done
  | failed
  deriving DecidableEq, Repr

def JobStatus.active : JobStatus → Bool
  | .queued | .running => true
  | .done | .failed => false

structure ProvisioningJob where
  runtime : ℕ
  op : Op
  status : JobStatus := .queued
  attempt : ℕ := 0
  leaseExpiresAt : Option Time := none
  lastError : String := ""
  startedAt : Option Time := none
  finishedAt : Option Time := none
  deriving DecidableEq, Repr

def maxAttempts : ℕ := 3

def leaseTtlSeconds : Time := 1500

/-- The places of a reservation. -/
inductive ReservePhase where
  /-- The switch, and the row of the runtime. -/
  | ensure
  | lockCapacity
  | lockRuntime
  | countUser
  | countGlobal
  | grant
  deriving DecidableEq, Repr

/-- What a call does next. -/
inductive Task where
  /-- Read the runtime and dispatch on its state. -/
  | load
  /-- Read it again after the reservation. -/
  | reload
  | reserve (phase : ReservePhase)
  | gate
  | transition (toState : RuntimeState) (reasonCode : String)
  | remote (reasonCode : String)
  | verify
  /-- The transition to `running`, with the heartbeat and the report. -/
  | arrive (v : VerifyResult) (requireLogin : Bool)
  /-- Read the state of the runtime. -/
  | look
  /-- The event of a failure, in the state that was read. -/
  | failure (reasonCode detail : String)
  | quarantine (reason : String)
  | clearQuarantine
  | note (reasonCode : String)
  | finish (status : JobStatus) (error : String)
  deriving DecidableEq, Repr

structure Claim where
  job : ℕ
  op : Op
  attempt : ℕ
  leaseExpiresAt : Time
  deriving DecidableEq, Repr

/-- A call on a runtime, with the state of the runtime that it has in memory.  The last two fields are
history: how often the row had been written when the call last knew it, and whether a stop of the
runtime by another call has been written since. -/
structure Call where
  runtime : ℕ
  claim : Option Claim := none
  seen : RuntimeState
  tasks : List Task
  mine : ℕ
  overtaken : Bool := false
  deriving DecidableEq, Repr

/-- A verification report, with the number of events that the runtime had after it. -/
structure Report where
  runtime : ℕ
  brokerLogin : String
  brokerServer : String
  brokerLoginVerified : Bool
  evidence : VerifyResult
  heartbeatAt : Time
  eventsUpTo : ℕ
  deriving DecidableEq, Repr

structure State where
  now : Time
  runtimes : Table AccountRuntime
  events : ℕ → List RuntimeEvent
  reports : List Report
  jobs : Table ProvisioningJob
  calls : ℕ → Option Call
  capacityLock : Option ℕ
  rowLocks : Locks ℕ

/-- What is fixed: the accounts and the two caps. -/
structure Env where
  accounts : ℕ → TradingAccount
  globalMaxActiveRuntimes : ℤ
  perUserMaxActiveRuntimes : ℕ → ℤ

/-- What a step of a call meets. -/
structure Reply where
  betaEnabled : Bool := true
  testersOver : Bool := false
  canonicalRoot : Bool := true
  recordValid : Bool := true
  hostHasCapacity : Bool := true
  requireLogin : Bool := false
  first : Except RemoteError VerifyResult := .ok {}
  probes : List (Except RemoteError VerifyResult) := []
  deriving DecidableEq, Repr

/-! ### The programs of the driver -/

def startAndVerify : RuntimeState → List Task
  | .starting => [.remote "start_failed", .transition .authenticating "started", .verify]
  | .authenticating => [.verify]
  | _ => []

/-- Materialise and configure the runtime, then start it. -/
def materialise : List Task :=
  [.remote "materialise_failed", .remote "configure_failed", .transition .starting "configured"]
    ++ startAndVerify .starting

def driveProvisioned : RuntimeState → List Task
  | .queued => .gate :: .transition .provisioning "materialising" :: materialise
  | .provisioning => .gate :: materialise
  | state => .gate :: startAndVerify state

def driveProvision (state : RuntimeState) : List Task :=
  if state = .notProvisioned ∨ state = .blocked then [.reserve .ensure, .reload]
  else driveProvisioned state

def driveStart : RuntimeState → List Task
  | .stopped | .stopping => .transition .starting "restart" :: .gate :: startAndVerify .starting
  | .starting => .gate :: startAndVerify .starting
  | .authenticating => .gate :: startAndVerify .authenticating
  | _ => []

def driveStop (state : RuntimeState) : List Task :=
  let stopAndRecord : List Task := [.remote "stop_failed", .transition .stopped "stopped"]
  if state.held ∧ state ≠ .stopping then .transition .stopping "stop_requested" :: stopAndRecord
  else if state = .stopping then stopAndRecord
  else []

def driveDeprovision (state : RuntimeState) : List Task :=
  let tearDown : List Task := [.remote "teardown_failed", .transition .removed "removed"]
  if state = .notProvisioned ∨ state = .removed then []
  else if state ≠ .deprovisioning then
    .transition .deprovisioning "deprovision_requested" :: tearDown
  else tearDown

def drive : Op → RuntimeState → List Task
  | .provision => driveProvision
  | .start => driveStart
  | .stop => driveStop
  | .deprovision => driveDeprovision

/-- How a job is brought to its end after a failed step: the failure is recorded in the state that is
read then, and the job is queued again, or the runtime is quarantined or failed and the job fails. -/
def failStep (attempt : ℕ) (e : StepError) : List Task :=
  let record : List Task := [.look, .failure e.reasonCode e.detail]
  let note : Task := .note (clip 64 e.reasonCode)
  if e.retryable ∧ attempt < maxAttempts then
    record ++ [note, .finish .queued (clip 64 e.reasonCode)]
  else
    let mark : List Task :=
      if e.ambiguous then
        [.look, .quarantine "ambiguous_timeout", .failure "ambiguous_timeout_quarantined" ""]
      else if e.reasonCode ∈ partialReasons then
        [.quarantine (clip 64 e.reasonCode), .transition .failed e.reasonCode]
      else [.transition .failed e.reasonCode]
    record ++ mark ++ [note, .finish .failed (clip 64 e.reasonCode)]

/-- What a call can raise. -/
inductive Raised where
  | step (e : StepError)
  | denied (reasonCode : String)
  | invalid
  deriving DecidableEq, Repr

/-- What is left to do after an error: an operator's call is over, a job is brought to its end. -/
def Call.afterRaise (call : Call) (raised : Raised) : List Task :=
  match call.claim with
  | none => []
  | some claim =>
    match raised with
    | .step e => failStep claim.attempt e
    | .denied reasonCode => [.finish .failed (clip 64 reasonCode)]
    | .invalid => [.finish .failed "invalid_runtime"]

/-- The narrow gate before every work on the box, on the runtime as the call has it in memory. -/
def assertBetaActivationAllowed (seen : RuntimeState) (reply : Reply) : Except String Unit :=
  if !reply.betaEnabled then .error "beta_runtimes_disabled"
  else if reply.testersOver then .error "tester_cap_exceeded"
  else if !seen.held then .error "slot_not_reserved"
  else if !reply.canonicalRoot then .error "noncanonical_runtime_path"
  else .ok ()

/-! ### The transactions -/

namespace State

variable (s : State)

def activeBetaRuntimeCount : ℕ :=
  (s.runtimes.filter fun _ rt => rt.cohort = .beta ∧ rt.state.held).length

def activeBetaRuntimeCountForUser (env : Env) (user : ℕ) : ℕ :=
  (s.runtimes.filter fun k rt =>
    rt.cohort = .beta ∧ rt.state.held ∧ (env.accounts k).userId = user).length

def setCall (c : ℕ) (call : Call) : State :=
  { s with calls := Function.update s.calls c (some call) }

def goOn (c : ℕ) (call : Call) (tasks : List Task) : State := s.setCall c { call with tasks }

/-- The transaction of a call is over. -/
def unlock (c : ℕ) : State :=
  { s with
    capacityLock := if s.capacityLock = some c then none else s.capacityLock
    rowLocks := s.rowLocks.release c }

def endCall (c : ℕ) : State :=
  { s.unlock c with calls := Function.update s.calls c none }

def canWrite (c k : ℕ) : Bool := s.rowLocks k = none ∨ s.rowLocks k = some c

/-- `record_transition`, on the row as it is found under its lock. -/
def recordTransition (k : ℕ) (toState : RuntimeState) (eventType : EventType)
    (reasonCode detail : String) : State :=
  match s.runtimes.get k with
  | none => s
  | some rt =>
    { s with
      runtimes := s.runtimes.modify k (·.moved toState reasonCode)
      events := Function.update s.events k
        (s.events k ++ [rt.moveEvent toState eventType reasonCode detail]) }

def saveRuntime (k : ℕ) (f : AccountRuntime → AccountRuntime) : State :=
  { s with runtimes := s.runtimes.modify k fun rt => { f rt with saves := rt.saves + 1 } }

/-- The transition to `running`, with the heartbeat and the report. -/
def recordRunning (env : Env) (k : ℕ) (v : VerifyResult) (requireLogin : Bool) : State :=
  let t := (s.recordTransition k .running .transition "verified" "").saveRuntime k
    fun rt => { rt with lastHeartbeatAt := some s.now }
  let report : Report :=
    { runtime := k
      brokerLogin := clip 64 (env.accounts k).accountNumber
      brokerServer := clip 160 ((resolveBrokerServer (env.accounts k)).toOption.getD "")
      brokerLoginVerified := requireLogin
      evidence := v
      heartbeatAt := s.now
      eventsUpTo := (t.events k).length }
  { t with reports := t.reports ++ [report] }

def saveJob (j : ℕ) (status : JobStatus) (error : String) : State :=
  { s with
    jobs := s.jobs.modify j fun job =>
      { job with
        status
        leaseExpiresAt := none
        finishedAt := if status = .queued then none else some s.now
        lastError := error } }

/-- A reservation is refused: the runtime is blocked in the same transaction. -/
def deny (c : ℕ) (call : Call) (reasonCode : String) : State :=
  let t :=
    if (s.runtimes.get call.runtime).any fun rt => rt.state ≠ .blocked then
      s.recordTransition call.runtime .blocked .transition reasonCode ""
    else s
  (t.unlock c).goOn c call (call.afterRaise (.denied reasonCode))

/-! ### One step of a call -/

def reserveStep (env : Env) (c : ℕ) (call : Call) (rest : List Task) (reply : Reply) :
    ReservePhase → State
  | .ensure =>
    if !reply.betaEnabled then
      s.goOn c call (call.afterRaise (.denied "beta_runtimes_disabled"))
    else
      { s with
        runtimes := s.runtimes.insert call.runtime
          { cohort := .beta } }.goOn c call (.reserve .lockCapacity :: rest)
  | .lockCapacity =>
    if s.capacityLock = none then
      { s with capacityLock := some c }.goOn c call (.reserve .lockRuntime :: rest)
    else s
  | .lockRuntime =>
    match s.runtimes.get call.runtime with
    | none => s.endCall c
    | some rt =>
      if s.rowLocks call.runtime ≠ none then s
      else if rt.cohort ≠ .beta then
        (s.unlock c).goOn c call (call.afterRaise (.denied "not_a_beta_runtime"))
      else if rt.quarantined then
        (s.unlock c).goOn c call (call.afterRaise (.denied "runtime_quarantined"))
      else if rt.state.held then (s.unlock c).goOn c call rest
      else
        { s with rowLocks := s.rowLocks.take call.runtime c }.goOn c call
          (.reserve .countUser :: rest)
  | .countUser =>
    let user := (env.accounts call.runtime).userId
    if !reply.recordValid then s.deny c call "broker_record_invalid"
    else if env.perUserMaxActiveRuntimes user ≤ s.activeBetaRuntimeCountForUser env user then
      s.deny c call "per_user_runtime_cap"
    else s.goOn c call (.reserve .countGlobal :: rest)
  | .countGlobal =>
    if env.globalMaxActiveRuntimes ≤ s.activeBetaRuntimeCount then s.deny c call "beta_pool_full"
    else s.goOn c call (.reserve .grant :: rest)
  | .grant =>
    if !reply.hostHasCapacity then s.deny c call "host_at_capacity"
    else
      ((s.recordTransition call.runtime .queued .transition "slot_reserved" "").unlock c).goOn c call
        rest

/-- A task of a call, in the state `s`.  A task that has to wait for a lock leaves the state. -/
def exec (env : Env) (c : ℕ) (call : Call) (rest : List Task) (reply : Reply) : Task → State
  | .load =>
    match s.runtimes.get call.runtime, call.claim with
    | some rt, some claim =>
      if rt.cohort ≠ .beta then s.goOn c call (call.afterRaise .invalid)
      else s.goOn c { call with seen := rt.state } (drive claim.op rt.state ++ rest)
    | _, _ => s.endCall c
  | .reload =>
    match s.runtimes.get call.runtime with
    | some rt => s.goOn c { call with seen := rt.state } (driveProvisioned rt.state ++ rest)
    | none => s.endCall c
  | .reserve phase => s.reserveStep env c call rest reply phase
  | .gate =>
    match assertBetaActivationAllowed call.seen reply with
    | .ok () => s.goOn c call rest
    | .error reasonCode => s.goOn c call (call.afterRaise (.denied reasonCode))
  | .transition toState reasonCode =>
    if s.canWrite c call.runtime then
      (s.recordTransition call.runtime toState .transition reasonCode "").goOn c
        { call with seen := toState } rest
    else s
  | .remote reasonCode =>
    match remoteStep reasonCode reply.first reply.probes with
    | .ok _ => s.goOn c call rest
    | .error e => s.goOn c call (call.afterRaise (.step e))
  | .verify =>
    match remoteStep "verify_failed" reply.first reply.probes with
    | .error e => s.goOn c call (call.afterRaise (.step e))
    | .ok v =>
      match verifyChecks reply.requireLogin (env.accounts call.runtime) v with
      | .error e => s.goOn c call (call.afterRaise (.step e))
      | .ok () => s.goOn c call (.arrive v reply.requireLogin :: rest)
  | .arrive v requireLogin =>
    if s.canWrite c call.runtime then
      (s.recordRunning env call.runtime v requireLogin).goOn c { call with seen := .running } rest
    else s
  | .look =>
    match s.runtimes.get call.runtime with
    | some rt => s.goOn c { call with seen := rt.state } rest
    | none => s.endCall c
  | .failure reasonCode detail =>
    if s.canWrite c call.runtime then
      (s.recordTransition call.runtime call.seen .failure reasonCode detail).goOn c call rest
    else s
  | .quarantine reason =>
    if s.canWrite c call.runtime then
      (s.saveRuntime call.runtime fun rt =>
        { rt with quarantined := true, quarantineReason := reason }).goOn c call rest
    else s
  | .clearQuarantine =>
    if s.canWrite c call.runtime then
      (s.saveRuntime call.runtime fun rt =>
        { rt with quarantined := false, quarantineReason := "" }).goOn c call rest
    else s
  | .note reasonCode =>
    if s.canWrite c call.runtime then
      (s.saveRuntime call.runtime fun rt => { rt with lastFailureReason := reasonCode }).goOn c call
        rest
    else s
  | .finish status error =>
    match call.claim with
    | some claim => (s.saveJob claim.job status error).endCall c
    | none => s.endCall c

def stepCall (env : Env) (c : ℕ) (reply : Reply) : State :=
  match s.calls c with
  | none => s
  | some call =>
    match call.tasks with
    | [] => s.endCall c
    | task :: rest => s.exec env c call rest reply task

/-! ### Claims and operators -/

def failRuntime (k : ℕ) (reasonCode : String) : State :=
  if (s.runtimes.get k).any fun rt => rt.cohort = .beta ∧ rt.state ≠ .failed then
    s.recordTransition k .failed .transition reasonCode ""
  else s

def leased (job : ProvisioningJob) : Bool :=
  job.status = .running ∧ job.leaseExpiresAt.any fun t => s.now < t

/-- The claim of a job by the call `c`, in one transaction. -/
def claimJob (c j : ℕ) : State :=
  match s.calls c, s.jobs.get j with
  | none, some job =>
    if !job.status.active ∨ s.leased job then s
    else if maxAttempts < job.attempt + 1 then
      if s.canWrite c job.runtime then
        { s with
          jobs := s.jobs.modify j fun job =>
            { job with
              status := .failed
              attempt := job.attempt + 1
              finishedAt := some s.now
              leaseExpiresAt := none
              lastError := "attempts_exhausted" } }.failRuntime job.runtime "attempts_exhausted"
      else s
    else
      let lease := s.now + leaseTtlSeconds
      let mine := ((s.runtimes.get job.runtime).map (·.saves)).getD 0
      { s with
        jobs := s.jobs.modify j fun job =>
          { job with
            status := .running
            attempt := job.attempt + 1
            startedAt := some (job.startedAt.getD s.now)
            leaseExpiresAt := some lease } }.setCall c
        { runtime := job.runtime
          claim := some
            { job := j, op := job.op, attempt := job.attempt + 1, leaseExpiresAt := lease }
          seen := .notProvisioned, tasks := [.load, .finish .done ""], mine }
  | _, _ => s

/-- What an operator asks for. -/
inductive Request where
  | reserve
  | release (reason : String)
  | quarantine (reason : String)
  | clearQuarantine
  deriving DecidableEq, Repr

def Request.tasks (seen : RuntimeState) : Request → List Task
  | .reserve => [.reserve .ensure]
  | .release reason => if seen.held then [.transition .stopped reason] else []
  | .quarantine reason =>
    .quarantine (clip 64 reason) :: if seen.held then [.transition .stopped "quarantined"] else []
  | .clearQuarantine => [.clearQuarantine]

/-- An operator's call on a runtime begins. -/
def beginRequest (c k : ℕ) (request : Request) : State :=
  match s.calls c, s.runtimes.get k with
  | none, some rt =>
    if request ≠ .reserve ∧ rt.cohort ≠ .beta then s
    else
      s.setCall c
        { runtime := k, seen := rt.state, tasks := request.tasks rt.state, mine := rt.saves }
  | none, none =>
    if request = .reserve then
      s.setCall c { runtime := k, seen := .notProvisioned, tasks := [.reserve .ensure], mine := 0 }
    else s
  | some _, _ => s

/-- Enqueue a job, unless one of the same kind is active. -/
def enqueueOp (k : ℕ) (op : Op) : State :=
  if (s.runtimes.get k).any fun rt => rt.cohort = .beta then
    if (s.jobs.first fun _ job => job.runtime = k ∧ job.op = op ∧ job.status.active).isSome then s
    else { s with jobs := s.jobs.insert s.jobs.fresh { runtime := k, op } }
  else s

/-! ### The history of the calls -/

def stops : Task → Bool
  | .transition .stopping _ | .transition .stopped _ | .transition .deprovisioning _
  | .transition .removed _ => true
  | .quarantine _ => true
  | _ => false

/-- How often the row of a runtime has been written. -/
def savesOf (k : ℕ) : ℕ := ((s.runtimes.get k).map (·.saves)).getD 0

/-- Note in the history of the calls what the call `c` has done to the runtime `k`: it knows its own
writes when it knew the row before, and it has overtaken the others when it has stopped the runtime. -/
def remember (before : State) (c k : ℕ) (stopped : Bool) : State :=
  { s with
    calls := fun q => (s.calls q).map fun call =>
      if q = c then
        { call with mine := if before.savesOf k = call.mine then s.savesOf k else call.mine }
      else if call.runtime = k ∧ stopped ∧ before.savesOf k < s.savesOf k then
        { call with overtaken := true }
      else call }

end State

/-! ### The system -/

inductive Action where
  | tick (seconds : ℕ)
  | enqueue (k : ℕ) (op : Op)
  | claim (c j : ℕ)
  | request (c k : ℕ) (request : State.Request)
  | step (c : ℕ) (reply : Reply)
  | crash (c : ℕ)
  deriving DecidableEq, Repr

def stepNoted (env : Env) (s : State) (c : ℕ) (reply : Reply) : State :=
  match s.calls c with
  | none => s
  | some call =>
    (s.stepCall env c reply).remember s c call.runtime (call.tasks.head?.any State.stops)

def step (env : Env) (s : State) : Action → State
  | .tick seconds => { s with now := s.now + seconds }
  | .enqueue k op => s.enqueueOp k op
  | .claim c j => s.claimJob c j
  | .request c k request => s.beginRequest c k request
  | .step c reply => stepNoted env s c reply
  | .crash c => s.endCall c

/-- The first state: no runtimes, no jobs and no calls. -/
def init : State where
  now := 0
  runtimes := Table.empty
  events := fun _ => []
  reports := []
  jobs := Table.empty
  calls := fun _ => none
  capacityLock := none
  rowLocks := Locks.free

end TerminalProvisioning
end GuvFX
