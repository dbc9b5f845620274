/-
# The dedicated partial-close consumer

The partial-close worker claims a job, asks for the authorization of its single send, and
reports the result of the bridge; a background sweep resolves the jobs whose worker died.  Each
of these functions does most of its work in transactions that hold the row lock of the job.

This file holds the records and, for each transaction, what it computes from the database and
the environment once it holds the lock: the new row of the job, the reconciliation status to
write, the answer, and how its session goes on.
-/
import GuvFX.Lib.Checks
import GuvFX.Lib.Table
import GuvFX.Lib.Text
import GuvFX.TradeCopier.Flags
import GuvFX.TradeCopier.Reconcile

namespace GuvFX
namespace Consumer

open Checks Flags Reconcile

/-! ### Records -/

inductive JobType where
  | testConnection
  | openTrade
  | closeTrade
  | syncPositions
  | placeTestOrder
  | placeOrder
  | modifyPosition
  | partialCloseTrade
  | placeOrderShadow
  deriving DecidableEq, Repr

inductive JobStatus where
  | pending
  | running
  | success
  | failed
  deriving DecidableEq, Repr

def JobStatus.isTerminal : JobStatus → Bool
  | .success | .failed => true
  | .pending | .running => false

/-- The phases of the dispatch lifecycle, recorded in the result of the job. -/
inductive Phase where
  | dispatched
  | authorized
  | completing
  | reconciled
  | divergent
  | operatorReview
  | dispatchRefused
  | reconPending
  deriving DecidableEq, Repr

/-- The result column of a job; a missing key is `none`. -/
structure JobResult where
  dispatchToken : Option String := none
  workerId : Option String := none
  phase : Option Phase := none
  sendNonce : Option String := none
  authorizedAt : Option Time := none
  reconAttempts : ℕ := 0
  deriving DecidableEq, Repr

/-- Is there a send nonce?  The empty text counts as none. -/
def JobResult.hasNonce (res : JobResult) : Bool :=
  match res.sendNonce with
  | none => false
  | some nonce => nonce ≠ ""

structure ExecutionJob where
  jobType : JobType
  accountId : ℕ
  terminalNodeId : Option ℕ
  /-- The key `expected_remaining` of the payload. -/
  expectedRemaining : Option ℚ
  status : JobStatus
  workerId : String
  result : JobResult
  errorMessage : String
  createdAt : Time
  startedAt : Option Time
  finishedAt : Option Time
  leaseExpiresAt : Option Time
  deriving DecidableEq, Repr

inductive RequestedOp where
  | open_
  | scaleIn
  | close
  | partialClose
  | modifySltp
  deriving DecidableEq, Repr

inductive ReplicationStatus where
  | shadowRecorded
  | rejected
  | skipped
  | shadowJobRecorded
  | executionRequested
  | executionVerified
  | executionFailed
  deriving DecidableEq, Repr

structure CopierReplication where
  executionJobId : Option ℕ
  requestedOp : RequestedOp
  status : ReplicationStatus
  reconciliationStatus : ReconStatus
  followerId : ℕ
  followerTicket : Option ℤ
  followerSymbol : String
  targetVolume : Option ℚ
  deriving DecidableEq, Repr

structure CopierFollower where
  enabled : Bool
  followerAccountId : ℕ
  deriving DecidableEq, Repr

inductive NodeStatus where
  | active
  | draining
  | offline
  | disabled
  deriving DecidableEq, Repr

structure TerminalNode where
  id : ℕ
  hostname : String
  status : NodeStatus
  deriving DecidableEq, Repr

/-- The lot rules of a symbol at the destination broker. -/
structure BrokerConstraints where
  lotStep : ℚ
  authoritative : Bool
  deriving DecidableEq, Repr

structure WorkerIdentity where
  workerId : String
  partialCloseWorker : Bool
  shadowWorker : Bool
  deriving DecidableEq, Repr

structure BridgeResult where
  ok : Bool
  needReconcile : Bool
  error : Option String
  deriving DecidableEq, Repr

/-- The identity the bridge has to verify before the mutation. -/
structure IdentityPin where
  expectedLogin : String
  expectedServer : String
  deriving DecidableEq, Repr

structure Instruction where
  jobId : ℕ
  sendNonce : String
  ticket : ℤ
  volume : Option ℚ
  expectedSymbol : String
  identity : IdentityPin
  deriving DecidableEq, Repr

/-- The rows that the partial-close functions write, listed by their primary keys. -/
structure Db where
  jobs : Table ExecutionJob
  replications : Table CopierReplication

/-- Everything the functions read and do not write. -/
structure Env where
  flags : Flags
  now : Time
  nodes : List TerminalNode
  followers : ℕ → CopierFollower
  accounts : ℕ → TradingAccount
  constraints : ℕ → String → BrokerConstraints
  sweepGraceSeconds : Time
  sweepMaxReconAttempts : ℕ

def leaseSeconds : Time := 120

/-! ### Worker class, identity pin, route -/

/-- The dedicated functions accept a pure partial-close worker only. -/
def assertDedicatedWorker : Option WorkerIdentity → Except String WorkerIdentity
  | none => .error "worker_auth_required"
  | some w =>
    if !w.partialCloseWorker then .error "not_partial_close_worker"
    else if w.shadowWorker then .error "mixed_worker_class_refused"
    else .ok w

def deriveIdentityPin (acct : TradingAccount) : Option IdentityPin :=
  let login := Text.strip acct.accountNumber
  let server := match acct.brokerServer with
    | none => ""
    | some bs => Text.strip bs.serverName
  if login = "" ∨ server = "" then none else some ⟨login, server⟩

def activeNodeIds (env : Env) (hostnames : List String) : List ℕ :=
  (env.nodes.filter fun n => n.hostname ∈ hostnames ∧ n.status = .active).map (·.id)

/-- Does a replication row route to the job `j` as a partial close? -/
def routesTo (j : ℕ) (rep : CopierReplication) : Bool :=
  rep.executionJobId = some j ∧ rep.requestedOp = .partialClose

def replicationForJob (db : Db) (j : ℕ) : Option (ℕ × CopierReplication) :=
  db.replications.first fun _ rep => routesTo j rep

/-- All three feature flags of the partial-close path are on. -/
def flagsOk (f : Flags) : Bool :=
  copierEnabled f && copierExecuteEnabled f && copierExecuteDemoArmed f

/-! ### Admission under the lock -/

/-- The follower, account and node part that claim and authorization share. -/
def routeChecks (env : Env) (job : ExecutionJob) (rep : CopierReplication) (nodeIds : List ℕ)
    (authorizedAccountId : ℕ) : List (Bool × String) :=
  let follower := env.followers rep.followerId
  let acct := env.accounts follower.followerAccountId
  [(follower.enabled, "follower_disabled"),
    (acct.isActive, "account_inactive"),
    (job.accountId = follower.followerAccountId ∧ job.accountId = authorizedAccountId,
      "account_route_mismatch"),
    (job.terminalNodeId.any (· ∈ nodeIds), "node_route_mismatch"),
    (isDemoEnvironment acct, "not_demo")]

def admitClaimChecks (env : Env) (job : ExecutionJob) (replication : Option CopierReplication)
    (nodeIds : List ℕ) (authorizedAccountId : ℕ) : List (Bool × String) :=
  ([(flagsOk env.flags, "flags_off"),
    (job.status = .pending, "job_not_pending"),
    (job.jobType = .partialCloseTrade, "job_not_partial_close"),
    (replication.isSome, "replication_missing")] : List (Bool × String)) ++
  match replication with
  | none => []
  | some rep =>
    ([(rep.status = .executionRequested, "replication_not_execution_requested"),
      (rep.reconciliationStatus ∉ partialDispatchMarkers, "already_dispatched")] :
        List (Bool × String)) ++
    routeChecks env job rep nodeIds authorizedAccountId

def completionAuthorized (job : ExecutionJob) (w : WorkerIdentity) (dispatchToken : String) :
    Bool :=
  job.workerId = w.workerId ∧ job.result.dispatchToken = some dispatchToken

def admitAuthorizeChecks (env : Env) (job : ExecutionJob)
    (replication : Option CopierReplication) (w : WorkerIdentity) (dispatchToken : String)
    (nodeIds : List ℕ) (authorizedAccountId : ℕ) : List (Bool × String) :=
  ([(completionAuthorized job w dispatchToken, "not_authorized"),
    (job.status = .running, "job_not_running"),
    (job.result.phase ≠ some .authorized ∧ !job.result.hasNonce, "already_authorized"),
    (job.result.phase = some .dispatched, "not_dispatch_phase"),
    (flagsOk env.flags, "flags_off"),
    (replication.isSome, "replication_missing")] : List (Bool × String)) ++
  match replication with
  | none => []
  | some rep =>
    ([(rep.status = .executionRequested, "replication_not_execution_requested"),
      (rep.reconciliationStatus = .partialReconPending, "not_recon_pending"),
      (rep.followerTicket.isSome, "no_follower_ticket")] : List (Bool × String)) ++
    routeChecks env job rep nodeIds authorizedAccountId

/-! ### Terminal bookkeeping -/

def reconToJob : ReconStatus → Option (JobStatus × Phase)
  | .partialReconciled => some (.success, .reconciled)
  | .partialDivergentVolume => some (.failed, .divergent)
  | .partialDivergentTicketGone => some (.failed, .divergent)
  | .partialOperatorReview => some (.failed, .operatorReview)
  | .partialDispatchRefused => some (.failed, .dispatchRefused)
  | _ => none

def finalizeJobTerminal (job : ExecutionJob) (recon : Option ReconStatus) (now : Time) :
    ExecutionJob :=
  if recon = some .partialReconcileUnavailable then
    { job with result := { job.result with phase := some .reconPending } }
  else
    match recon.bind fun c => (reconToJob c).map fun m => (c, m) with
    | none => job
    | some (c, newStatus, phase) =>
      if job.status.isTerminal then job
      else
        { job with
          status := newStatus
          finishedAt := some now
          result := { job.result with phase := some phase }
          errorMessage :=
            if newStatus = .failed then "partial_close_" ++ c.text else job.errorMessage }

@[simp] lemma finalizeJobTerminal_jobType (job : ExecutionJob) (recon : Option ReconStatus)
    (now : Time) : (finalizeJobTerminal job recon now).jobType = job.jobType := by
  simp only [finalizeJobTerminal]
  split_ifs
  · rfl
  · cases recon.bind fun c => (reconToJob c).map fun m => (c, m) <;> rfl
  · cases recon.bind fun c => (reconToJob c).map fun m => (c, m) <;> rfl

@[simp] lemma finalizeJobTerminal_sendNonce (job : ExecutionJob) (recon : Option ReconStatus)
    (now : Time) :
    (finalizeJobTerminal job recon now).result.sendNonce = job.result.sendNonce := by
  simp only [finalizeJobTerminal]
  split_ifs
  · rfl
  · cases recon.bind fun c => (reconToJob c).map fun m => (c, m) <;> rfl
  · cases recon.bind fun c => (reconToJob c).map fun m => (c, m) <;> rfl

lemma finalizeJobTerminal_status (job : ExecutionJob) (recon : Option ReconStatus) (now : Time) :
    (finalizeJobTerminal job recon now).status =
      if job.status.isTerminal then job.status
      else ((recon.bind reconToJob).map Prod.fst).getD job.status := by
  cases recon with
  | none => simp [finalizeJobTerminal]
  | some c =>
    cases c <;> simp only [finalizeJobTerminal, reconToJob, Option.some.injEq, reduceCtorEq,
      if_false, if_true, Option.bind_some, Option.map_some, Option.map_none, Option.getD_some,
      Option.getD_none, ite_self] <;> split_ifs <;> rfl

lemma reconToJob_terminal {c : ReconStatus} {m : JobStatus × Phase} (h : reconToJob c = some m) :
    m.1.isTerminal = true := by
  cases c <;> simp only [reconToJob, Option.some.injEq, reduceCtorEq] at h <;> subst h <;> rfl

/-! ### Sessions -/

/-- The rest of a sweep: its clock, the candidates still to visit, and its counters. -/
structure Sweep where
  now : Time
  todo : List ℕ
  scanned : ℕ
  finalized : ℕ
  deriving DecidableEq, Repr

/-- What a read-back needs, all of it derived under the lock. -/
structure ReadPlan where
  jobId : ℕ
  replicationId : ℕ
  followerTicket : Option ℤ
  intendedRemaining : ℚ
  step : ℚ
  deriving DecidableEq, Repr

/-- What the completion carries out of its first transaction. -/
structure CompletePlan where
  jobId : ℕ
  replicationId : ℕ
  followerTicket : Option ℤ
  accountId : ℕ
  symbol : String
  intendedRemaining : Option ℚ
  deriving DecidableEq, Repr

/-- The transactions that hold the row lock of a job. -/
inductive Call where
  | claim (w : WorkerIdentity) (accountId : ℕ) (nodeIds : List ℕ)
  | authorizeSend (w : WorkerIdentity) (jobId : ℕ) (dispatchToken : String) (accountId : ℕ)
      (nodeIds : List ℕ)
  | complete (w : WorkerIdentity) (jobId : ℕ) (dispatchToken : String) (bridge : BridgeResult)
      (sendNonce : Option String) (now : Time)
  | finalizeReconcile (jobId : ℕ) (recon : Option ReconStatus) (reason : Option String)
      (now : Time)
  | sweepCapture (sweep : Sweep) (jobId : ℕ)
  | sweepFinalize (sweep : Sweep) (jobId : ℕ) (recon : Option ReconStatus)
  deriving DecidableEq, Repr

/-- Who runs a read-back. -/
inductive Reader where
  | complete
  | sweep (sweep : Sweep)
  deriving DecidableEq, Repr

/-- A session outside any transaction. -/
inductive Rest where
  | idle
  | ready (c : Call)
  | completeRoute (plan : CompletePlan)
  | readBack (plan : ReadPlan) (reader : Reader)
  deriving DecidableEq, Repr

/-- The answers of the functions. -/
inductive Reply where
  | refused (reason : String)
  | raised (reason : String)
  | claimed (jobId : ℕ) (dispatchToken : String) (replicationId : ℕ)
  | instruction (i : Instruction)
  | idempotent (status : ReconStatus)
  | inProgress (status : ReconStatus)
  | dispatchRefused
  | finalized (status : Option ReconStatus) (jobStatus : JobStatus) (reason : Option String)
  | swept (scanned finalized : ℕ)
  deriving DecidableEq, Repr

/-- What a transaction does when it commits: the row it writes to its locked job, the
reconciliation status it writes to a replication, its answer, and how its session goes on. -/
structure Txn where
  jobId : ℕ
  row : Option ExecutionJob := none
  recon : Option (ℕ × ReconStatus) := none
  reply : Option Reply := none
  next : Rest := .idle
  deriving DecidableEq, Repr

/-- The session of a sweep that is done with one candidate. -/
def Sweep.next (sweep : Sweep) : Rest :=
  match sweep.todo with
  | [] => .idle
  | j :: todo => .ready (.sweepCapture { sweep with todo } j)

/-- The answer of a sweep that is done with its last candidate. -/
def Sweep.reply (sweep : Sweep) : Option Reply :=
  match sweep.todo with
  | [] => some (.swept sweep.scanned sweep.finalized)
  | _ :: _ => none

def Sweep.finalizedOne (sweep : Sweep) : Sweep := { sweep with finalized := sweep.finalized + 1 }

/-- The sweep with one more job read back. -/
def Sweep.scannedOne (sweep : Sweep) : Sweep := { sweep with scanned := sweep.scanned + 1 }

/-! ### The transactions -/

/-- The bridge errors that provably occur before the send. -/
def presendRefusalErrors : List String :=
  ["mt5_not_installed", "mt5_init_failed", "account_info_failed", "account_not_demo",
    "account_mode_not_certified", "volume_invalid", "volume_non_positive",
    "expected_symbol_required", "identity_pin_required", "positions_get_failed",
    "position_not_found", "multiple_positions_returned", "ticket_mismatch", "symbol_changed",
    "symbol_info_failed", "symbol_constraints_unavailable", "unsupported_filling_mode",
    "would_be_full_close", "rounds_to_zero", "below_min_reduction", "remainder_below_min",
    "tick_failed", "identity_rejected"]

/-- A rendering of a bridge error that is a short code and nothing else. -/
def safeErrorCode (value : Option String) : String :=
  let s := match value with
    | none | some "" => "unknown"
    | some s => s
  if s.toList.all fun c => c.isAlphanum || c ∈ ['_', '-', '.'] then
    String.ofList (s.toList.take 48)
  else "unsanitised"

/-- `claim_partial_close`, once it holds the lock of the job. -/
def claimBody (env : Env) (db : Db) (w : WorkerIdentity) (accountId : ℕ) (nodeIds : List ℕ)
    (dispatchToken : String) (j : ℕ) (job : ExecutionJob) : Txn :=
  let replication := replicationForJob db j
  match firstRefusal (admitClaimChecks env job (replication.map Prod.snd) nodeIds accountId) with
  | some reason => { jobId := j, reply := some (.refused reason) }
  | none =>
    match replication with
    | none => { jobId := j }
    | some (r, rep) =>
      match deriveIdentityPin (env.accounts (env.followers rep.followerId).followerAccountId) with
      | none => { jobId := j, reply := some (.refused "identity_pin_unresolved") }
      | some _ =>
        { jobId := j
          row := some
            { job with
              status := .running
              workerId := w.workerId
              startedAt := some (job.startedAt.getD env.now)
              leaseExpiresAt := some (env.now + leaseSeconds)
              result :=
                { dispatchToken := some dispatchToken, workerId := some w.workerId,
                  phase := some .dispatched } }
          recon := some (r, .partialReconPending)
          reply := some (.claimed j dispatchToken r) }

/-- `authorize_send`, once it holds the lock of the job. -/
def authorizeBody (env : Env) (db : Db) (w : WorkerIdentity) (dispatchToken : String)
    (accountId : ℕ) (nodeIds : List ℕ) (sendNonce : String) (j : ℕ) (job : ExecutionJob) : Txn :=
  let replication := replicationForJob db j
  match firstRefusal (admitAuthorizeChecks env job (replication.map Prod.snd) w dispatchToken
      nodeIds accountId) with
  | some reason => { jobId := j, reply := some (.refused reason) }
  | none =>
    match replication with
    | none => { jobId := j }
    | some (_, rep) =>
      match deriveIdentityPin (env.accounts (env.followers rep.followerId).followerAccountId) with
      | none => { jobId := j, reply := some (.refused "identity_pin_unresolved") }
      | some pin =>
        { jobId := j
          row := some
            { job with
              result :=
                { job.result with
                  phase := some .authorized
                  sendNonce := some sendNonce
                  authorizedAt := some env.now } }
          reply := some (.instruction
            { jobId := j, sendNonce, ticket := rep.followerTicket.getD 0,
              volume := rep.targetVolume, expectedSymbol := rep.followerSymbol,
              identity := pin }) }

def presendRefusal (bridge : BridgeResult) : Bool :=
  !bridge.ok && !bridge.needReconcile && bridge.error.any (· ∈ presendRefusalErrors)

/-- The first transaction of `complete_partial_close`, once it holds the lock of the job. -/
def completeBody (db : Db) (w : WorkerIdentity) (dispatchToken : String) (bridge : BridgeResult)
    (sendNonce : Option String) (now : Time) (env : Env) (j : ℕ) (job : ExecutionJob) : Txn :=
  if !completionAuthorized job w dispatchToken then
    { jobId := j, reply := some (.raised "completion_not_authorized") }
  else
    match replicationForJob db j with
    | none => { jobId := j, reply := some (.raised "replication_missing") }
    | some (r, rep) =>
      if rep.reconciliationStatus ∈ partialTerminalStates ∨ job.status.isTerminal then
        { jobId := j, reply := some (.idempotent rep.reconciliationStatus) }
      else if job.result.phase ≠ some .authorized then
        if job.result.phase ∈ [some .completing, some .reconPending] ∨
            rep.reconciliationStatus ∈
              [.partialSent, .partialOutcomeUnknown, .partialReconcileUnavailable] then
          { jobId := j, reply := some (.inProgress rep.reconciliationStatus) }
        else { jobId := j, reply := some (.raised "completion_requires_authorization") }
      else if job.result.hasNonce ∧ sendNonce ≠ job.result.sendNonce then
        { jobId := j, reply := some (.raised "send_nonce_mismatch") }
      else if presendRefusal bridge then
        -- nothing was sent: terminal without a read-back
        { jobId := j
          row := some
            { job with
              result := { job.result with phase := some .dispatchRefused }
              status := .failed
              finishedAt := some now
              errorMessage := "partial_close_dispatch_refused:" ++ safeErrorCode bridge.error }
          recon := some (r, .partialDispatchRefused)
          reply := some .dispatchRefused }
      else
        -- a send was attempted: the completion goes on outside the lock
        { jobId := j
          row := some { job with result := { job.result with phase := some .completing } }
          recon := some (r,
            if bridge.error = some "order_send_none_unknown" then .partialOutcomeUnknown
            else .partialSent)
          next := .completeRoute
            { jobId := j, replicationId := r, followerTicket := rep.followerTicket,
              accountId := (env.followers rep.followerId).followerAccountId,
              symbol := rep.followerSymbol, intendedRemaining := job.expectedRemaining } }

/-- Are the lot rules good enough for the tolerance of a read-back? -/
def BrokerConstraints.usable (c : BrokerConstraints) : Bool := c.authoritative ∧ 0 < c.lotStep

/-- How the completion goes on after its first transaction: the operator review when the step
or the intended remaining volume is not available, the read-back otherwise. -/
def completeRoute (env : Env) (plan : CompletePlan) : Rest :=
  let constraints := env.constraints plan.accountId plan.symbol
  if !constraints.usable then
    .ready (.finalizeReconcile plan.jobId (some .partialOperatorReview)
      (some "authoritative_step_unavailable") env.now)
  else
    match plan.intendedRemaining with
    | none =>
      .ready (.finalizeReconcile plan.jobId (some .partialOperatorReview)
        (some "intended_remaining_unavailable") env.now)
    | some intendedRemaining =>
      .readBack
        { jobId := plan.jobId, replicationId := plan.replicationId,
          followerTicket := plan.followerTicket, intendedRemaining, step := constraints.lotStep }
        .complete

/-- `_finalize_reconcile`, once it holds the lock of the job. -/
def finalizeReconcileBody (db : Db) (recon : Option ReconStatus) (reason : Option String)
    (now : Time) (j : ℕ) (job : ExecutionJob) : Txn :=
  let job' := finalizeJobTerminal job recon now
  { jobId := j
    row := some job'
    recon :=
      match replicationForJob db j with
      | none => none
      | some (r, rep) =>
        if recon = some .partialOperatorReview ∧ rep.reconciliationStatus ∉ partialTerminalStates
        then some (r, .partialOperatorReview)
        else none
    reply := some (.finalized recon job'.status reason) }

/-- The first phase of the sweep on one candidate, once it holds the lock of the job. -/
def sweepCaptureBody (env : Env) (db : Db) (sweep : Sweep) (j : ℕ) (job : ExecutionJob) : Txn :=
  match replicationForJob db j with
  | none => { jobId := j, reply := sweep.reply, next := sweep.next }
  | some (r, rep) =>
    if rep.reconciliationStatus ∈ partialTerminalStates then
      -- the replication is terminal and the job was not finalised: close it
      { jobId := j
        row := some (finalizeJobTerminal job (some rep.reconciliationStatus) sweep.now)
        reply := sweep.finalizedOne.reply
        next := sweep.finalizedOne.next }
    else if job.result.phase = some .dispatched then
      -- a send was never authorized: nothing was sent
      { jobId := j
        row := some (finalizeJobTerminal job (some .partialDispatchRefused) sweep.now)
        recon := some (r, .partialDispatchRefused)
        reply := sweep.finalizedOne.reply
        next := sweep.finalizedOne.next }
    else
      let accountId := (env.followers rep.followerId).followerAccountId
      let attempts := job.result.reconAttempts + 1
      let job' := { job with result := { job.result with reconAttempts := attempts } }
      let constraints := env.constraints accountId rep.followerSymbol
      let readable :=
        if constraints.usable ∧ attempts ≤ env.sweepMaxReconAttempts then job.expectedRemaining
        else none
      match readable with
      | some intendedRemaining =>
        { jobId := j
          row := some job'
          next := .readBack
            { jobId := j, replicationId := r, followerTicket := rep.followerTicket,
              intendedRemaining, step := constraints.lotStep }
            (.sweep sweep) }
      | none =>
        { jobId := j
          row := some (finalizeJobTerminal job' (some .partialOperatorReview) sweep.now)
          recon := some (r, .partialOperatorReview)
          reply := sweep.finalizedOne.reply
          next := sweep.finalizedOne.next }

/-- The last phase of the sweep on one candidate, once it holds the lock of the job. -/
def sweepFinalizeBody (sweep : Sweep) (recon : Option ReconStatus) (j : ℕ) (job : ExecutionJob) :
    Txn :=
  if job.status = .running then
    { jobId := j
      row := some (finalizeJobTerminal job recon sweep.now)
      reply := sweep.finalizedOne.reply
      next := sweep.finalizedOne.next }
  else { jobId := j, reply := sweep.reply, next := sweep.next }

/-- What a transaction computes once it holds the lock of the job `j`; `hex` is the value of the
one identifier it may draw. -/
def body (env : Env) (db : Db) (hex : String) (j : ℕ) (job : ExecutionJob) : Call → Txn
  | .claim w accountId nodeIds => claimBody env db w accountId nodeIds hex j job
  | .authorizeSend w _ dispatchToken accountId nodeIds =>
    authorizeBody env db w dispatchToken accountId nodeIds hex j job
  | .complete w _ dispatchToken bridge sendNonce now =>
    completeBody db w dispatchToken bridge sendNonce now env j job
  | .finalizeReconcile _ recon reason now => finalizeReconcileBody db recon reason now j job
  | .sweepCapture sweep _ => sweepCaptureBody env db sweep j job
  | .sweepFinalize sweep _ recon => sweepFinalizeBody sweep recon j job

def afterReadBack (env : Env) (plan : ReadPlan) (recon : Option ReconStatus) : Reader → Rest
  | .complete => .ready (.finalizeReconcile plan.jobId recon none env.now)
  | .sweep sweep =>
    if recon = some .partialReconcileUnavailable then sweep.scannedOne.next
    else .ready (.sweepFinalize sweep.scannedOne plan.jobId recon)

def readBackReply (recon : Option ReconStatus) : Reader → Option Reply
  | .complete => none
  | .sweep sweep =>
    if recon = some .partialReconcileUnavailable then sweep.scannedOne.reply else none

/-! ### What each transaction can do -/

/-- A transaction that writes nothing and ends its session. -/
structure Txn.Silent (t : Txn) : Prop where
  row : t.row = none
  recon : t.recon = none
  next : t.next = .idle
  reply : ∀ i, t.reply ≠ some (.instruction i)

/-- A change of a job that leaves its type, its status and its send nonce alone. -/
structure KeepsStatus (job job' : ExecutionJob) : Prop where
  jobType : job'.jobType = job.jobType
  status : job'.status = job.status
  sendNonce : job'.result.sendNonce = job.result.sendNonce

section Bodies

variable (env : Env) (db : Db) (w : WorkerIdentity) (j : ℕ) (job : ExecutionJob)

lemma claimBody_cases (accountId : ℕ) (nodeIds : List ℕ) (token : String) :
    (claimBody env db w accountId nodeIds token j job).Silent ∨
    ∃ r rep job',
      claimBody env db w accountId nodeIds token j job =
        { jobId := j, row := some job', recon := some (r, .partialReconPending),
          reply := some (.claimed j token r) } ∧
      replicationForJob db j = some (r, rep) ∧ job.status = .pending ∧
      rep.reconciliationStatus ∉ partialDispatchMarkers ∧
      job'.jobType = job.jobType ∧ job'.status = .running := by
  simp only [claimBody]
  cases hadm : firstRefusal (admitClaimChecks env job
      ((replicationForJob db j).map Prod.snd) nodeIds accountId) with
  | some reason => exact Or.inl ⟨rfl, rfl, rfl, by simp⟩
  | none =>
    have hall := firstRefusal_eq_none_iff.mp hadm
    cases hrep : replicationForJob db j with
    | none => exact Or.inl ⟨rfl, rfl, rfl, by simp⟩
    | some e =>
      obtain ⟨r, rep⟩ := e
      rw [hrep] at hall
      have hpending := hall _ (List.mem_append_left _ (.tail _ (.head _)))
      have hfresh := hall _ (List.mem_append_right _ (List.mem_append_left _ (.tail _ (.head _))))
      dsimp only
      cases deriveIdentityPin (env.accounts (env.followers rep.followerId).followerAccountId) with
      | none => exact Or.inl ⟨rfl, rfl, rfl, by simp⟩
      | some pin =>
        exact Or.inr ⟨r, rep, _, rfl, rfl, of_decide_eq_true hpending, of_decide_eq_true hfresh,
          rfl, rfl⟩

lemma authorizeBody_cases (token : String) (accountId : ℕ) (nodeIds : List ℕ) (nonce : String) :
    (authorizeBody env db w token accountId nodeIds nonce j job).Silent ∨
    ∃ (i : Instruction) (job' : ExecutionJob),
      authorizeBody env db w token accountId nodeIds nonce j job =
        { jobId := j, row := some job', reply := some (.instruction i) } ∧
      i.jobId = j ∧ job.status = .running ∧ job.result.hasNonce = false ∧
      job.result.phase = some .dispatched ∧ flagsOk env.flags = true ∧
      job'.jobType = job.jobType ∧ job'.status = job.status ∧
      job'.result.sendNonce = some nonce := by
  simp only [authorizeBody]
  cases hadm : firstRefusal (admitAuthorizeChecks env job
      ((replicationForJob db j).map Prod.snd) w token nodeIds accountId) with
  | some reason => exact Or.inl ⟨rfl, rfl, rfl, by simp⟩
  | none =>
    have hall := firstRefusal_eq_none_iff.mp hadm
    have hrunning := hall _ (List.mem_append_left _ (.tail _ (.head _)))
    have hnonce := hall _ (List.mem_append_left _ (.tail _ (.tail _ (.head _))))
    have hphase := hall _ (List.mem_append_left _ (.tail _ (.tail _ (.tail _ (.head _)))))
    have hflags := hall _
      (List.mem_append_left _ (.tail _ (.tail _ (.tail _ (.tail _ (.head _))))))
    cases replicationForJob db j with
    | none => exact Or.inl ⟨rfl, rfl, rfl, by simp⟩
    | some e =>
      obtain ⟨r, rep⟩ := e
      dsimp only
      cases deriveIdentityPin (env.accounts (env.followers rep.followerId).followerAccountId) with
      | none => exact Or.inl ⟨rfl, rfl, rfl, by simp⟩
      | some pin =>
        exact Or.inr ⟨_, _, rfl, rfl, of_decide_eq_true hrunning,
          by simpa using (of_decide_eq_true hnonce).2, of_decide_eq_true hphase, hflags,
          rfl, rfl, rfl⟩

/-- A completion writes nothing, or it finds a job and a replication that are not terminal, and
then records the refusal of the bridge or goes on to the read-back. -/
lemma completeBody_cases (token : String) (bridge : BridgeResult) (nonce : Option String)
    (now : Time) :
    (completeBody db w token bridge nonce now env j job).Silent ∨
    ∃ r rep job', replicationForJob db j = some (r, rep) ∧
      rep.reconciliationStatus ∉ partialTerminalStates ∧ job.status.isTerminal = false ∧
      (completeBody db w token bridge nonce now env j job =
            { jobId := j, row := some job', recon := some (r, .partialDispatchRefused),
              reply := some .dispatchRefused } ∧
          job'.status = .failed ∧ job'.jobType = job.jobType ∧
          job'.result.sendNonce = job.result.sendNonce ∨
        ∃ c plan,
          completeBody db w token bridge nonce now env j job =
            { jobId := j, row := some job', recon := some (r, c),
              next := .completeRoute plan } ∧
          KeepsStatus job job' ∧ c ∉ partialTerminalStates ∧
          CompletePlan.jobId plan = j ∧ CompletePlan.replicationId plan = r) := by
  simp only [completeBody]
  by_cases hauth : (!completionAuthorized job w token) = true
  · rw [if_pos hauth]
    exact Or.inl ⟨rfl, rfl, rfl, by simp⟩
  rw [if_neg hauth]
  cases hrep : replicationForJob db j with
  | none => exact Or.inl ⟨rfl, rfl, rfl, by simp⟩
  | some e =>
    obtain ⟨r, rep⟩ := e
    dsimp only
    by_cases hdone : rep.reconciliationStatus ∈ partialTerminalStates ∨ job.status.isTerminal
    · rw [if_pos hdone]
      exact Or.inl ⟨rfl, rfl, rfl, by simp⟩
    rw [if_neg hdone]
    obtain ⟨hrecon, hterm⟩ := not_or.mp hdone
    by_cases hphase : job.result.phase ≠ some .authorized
    · rw [if_pos hphase]
      split_ifs <;> exact Or.inl ⟨rfl, rfl, rfl, by simp⟩
    rw [if_neg hphase]
    by_cases hnonce : job.result.hasNonce ∧ nonce ≠ job.result.sendNonce
    · rw [if_pos hnonce]
      exact Or.inl ⟨rfl, rfl, rfl, by simp⟩
    rw [if_neg hnonce]
    refine Or.inr ?_
    by_cases hpresend : presendRefusal bridge = true
    · rw [if_pos hpresend]
      exact ⟨r, rep, _, rfl, hrecon, by simpa using hterm, Or.inl ⟨rfl, rfl, rfl, rfl⟩⟩
    · rw [if_neg hpresend]
      refine ⟨r, rep, _, rfl, hrecon, by simpa using hterm,
        Or.inr ⟨_, _, rfl, ⟨rfl, rfl, rfl⟩, ?_, rfl, rfl⟩⟩
      split_ifs <;> decide

lemma sweepCaptureBody_cases (sweep : Sweep) :
    sweepCaptureBody env db sweep j job =
        { jobId := j, reply := sweep.reply, next := sweep.next } ∨
    ∃ r rep, replicationForJob db j = some (r, rep) ∧
      (rep.reconciliationStatus ∈ partialTerminalStates ∧
          sweepCaptureBody env db sweep j job =
            { jobId := j
              row := some (finalizeJobTerminal job (some rep.reconciliationStatus) sweep.now)
              reply := sweep.finalizedOne.reply, next := sweep.finalizedOne.next } ∨
        rep.reconciliationStatus ∉ partialTerminalStates ∧ ∃ job', KeepsStatus job job' ∧
          ((∃ c, (c = .partialDispatchRefused ∨ c = .partialOperatorReview) ∧
              sweepCaptureBody env db sweep j job =
                { jobId := j, row := some (finalizeJobTerminal job' (some c) sweep.now)
                  recon := some (r, c)
                  reply := sweep.finalizedOne.reply, next := sweep.finalizedOne.next }) ∨
            ∃ plan,
              sweepCaptureBody env db sweep j job =
                { jobId := j, row := some job', next := .readBack plan (.sweep sweep) } ∧
              ReadPlan.jobId plan = j ∧ ReadPlan.replicationId plan = r)) := by
  simp only [sweepCaptureBody]
  cases hrep : replicationForJob db j with
  | none => exact Or.inl rfl
  | some e =>
    obtain ⟨r, rep⟩ := e
    dsimp only
    refine Or.inr ⟨r, rep, rfl, ?_⟩
    by_cases hrecon : rep.reconciliationStatus ∈ partialTerminalStates
    · rw [if_pos hrecon]
      exact Or.inl ⟨hrecon, rfl⟩
    rw [if_neg hrecon]
    refine Or.inr ⟨hrecon, ?_⟩
    by_cases hphase : job.result.phase = some .dispatched
    · rw [if_pos hphase]
      exact ⟨job, ⟨rfl, rfl, rfl⟩, Or.inl ⟨_, Or.inl rfl, rfl⟩⟩
    rw [if_neg hphase]
    refine ⟨{ job with
      result := { job.result with reconAttempts := job.result.reconAttempts + 1 } },
      ⟨rfl, rfl, rfl⟩, ?_⟩
    split
    · exact Or.inr ⟨_, rfl, rfl, rfl⟩
    · exact Or.inl ⟨_, Or.inr rfl, rfl⟩

end Bodies

end Consumer
end GuvFX
