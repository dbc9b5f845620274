/-
# Erasure requests and their file deletions

An erasure request is verified, planned, approved and executed by people who are kept apart: the requester,
the verifier and the approver are three, and the executor that the approver assigns is not the approver.
The execution is one step of the governed procedure; it enqueues one task for each file to delete.  Workers
drain the tasks, each in one transaction: a worker locks the tasks it takes up and passes over those that
others hold, attempts each of them, locks the requests it has touched one after the other, decides whether a
request has been drained, and commits.  Until then nobody else sees what it has written.

A statement that writes the row of a request waits as long as a worker holds it; here it does nothing then.
-/
import GuvFX.Lib.Locks
import GuvFX.Lib.Table
import Mathlib.Data.Int.Notation
import Mathlib.Data.List.Sort

namespace GuvFX
namespace BrokerIntelligence
namespace Erasure

/-! ### Requests -/

inductive RequestStatus
  | requested | planned | approved | executed | completed | failed | held | cancelled
  deriving DecidableEq, Repr

def RequestStatus.value : RequestStatus → String
  | .requested => "REQUESTED"
  | .planned => "PLANNED"
  | .approved => "APPROVED"
  | .executed => "EXECUTED"
  | .completed => "COMPLETED"
  | .failed => "FAILED"
  | .held => "HELD"
  | .cancelled => "CANCELLED"

structure ErasureRequest where
  subjectUserIdSnapshot : ℕ
  requestedBy : Option ℕ := none
  identityVerified : Bool := false
  status : RequestStatus := .requested
  confirmToken : String := ""
  error : String := ""
  plannedAt : Option ℤ := none
  executedAt : Option ℤ := none
  verifiedBy : Option ℕ := none
  verifiedAt : Option ℤ := none
  verificationMethod : String := ""
  approvedBy : Option ℕ := none
  approvedAt : Option ℤ := none
  approvalExpiresAt : Option ℤ := none
  approvalRevoked : Bool := false
  executedBy : Option ℕ := none
  assignedExecutor : Option ℕ := none
  deriving DecidableEq, Repr

inductive TaskKind
  | credentialFile | evidenceFile
  deriving DecidableEq, Repr

inductive TaskStatus
  | pending | completed | failed | dead
  deriving DecidableEq, Repr

structure DeletionTask where
  request : ℕ
  kind : TaskKind
  targetRef : String
  status : TaskStatus := .pending
  attempts : ℕ := 0
  lastError : String := ""
  completedAt : Option ℤ := none
  deriving DecidableEq, Repr

/-- There is still something to do. -/
def DeletionTask.isOpen (task : DeletionTask) : Bool := task.status = .pending || task.status = .failed

def maxDeletionAttempts : ℕ := 5

/-- The categories in which an identity can have been verified. -/
def allowedVerificationMethods : List String :=
  ["signed-request", "video-call", "gov-id-checked", "account-control-proof", "support-ticket-verified"]

def truncated (n : ℕ) (text : String) : String := String.ofList (text.toList.take n)

/-! ### Verification and approval -/

/-- Record that the identity of the data subject has been verified. -/
def verifyIdentity (verifier : Option ℕ) (method : String) (now : ℤ) (req : ErasureRequest) :
    Except String ErasureRequest :=
  if req.status ≠ .requested ∧ req.status ≠ .planned then
    .error s!"cannot verify identity once request status is '{req.status.value}'"
  else
    match verifier with
    | none => .error "a verifier identity is required"
    | some _ =>
      if method ∉ allowedVerificationMethods then
        .error "verification method must be a recognised non-empty category code"
      else if req.requestedBy.isNone then
        .error "cannot verify: no requester recorded (two-person cannot be enforced)"
      else if verifier = req.requestedBy then
        .error "two-person rule: the verifier must differ from the requester"
      else
        .ok { req with
          identityVerified := true
          verifiedBy := verifier
          verifiedAt := some now
          verificationMethod := truncated 60 method }

def approveRequest (approver assignedExecutor : Option ℕ) (approvalTtlMinutes : ℤ) (now : ℤ)
    (req : ErasureRequest) : Except String ErasureRequest :=
  if req.status ≠ .planned then
    .error s!"request status '{req.status.value}' is not approvable (need a produced plan)"
  else if req.identityVerified = false then
    .error "cannot approve: data-subject identity not verified"
  else if approver.isNone then .error "an approver identity is required"
  else if assignedExecutor.isNone then .error "an assigned executor identity is required"
  else if req.requestedBy.isNone then
    .error "two-person rule: no requester recorded; cannot enforce separation of duties"
  else if req.verifiedBy.isNone then .error "cannot approve: no verifier recorded"
  else if approver = req.requestedBy then
    .error "two-person rule: the approver must differ from the requester"
  else if approver = req.verifiedBy then .error "two-person rule: the approver must differ from the verifier"
  else if assignedExecutor = approver then
    .error "two-person rule: the assigned executor must differ from the approver"
  else
    .ok { req with
      approvedBy := approver
      assignedExecutor := assignedExecutor
      approvedAt := some now
      approvalRevoked := false
      approvalExpiresAt := some (now + max 1 approvalTtlMinutes)
      status := .approved }

/-- The gate of the execution; it gives the owner whose data are erased. -/
def assertErasureAllowed (enabled : Bool) (activeHold : ℕ → Bool) (now : ℤ) (req : ErasureRequest) :
    Except String ℕ :=
  if enabled = false then
    .error "controlled erasure is disabled (BROKER_INTELLIGENCE_ERASURE_ENABLED off)"
  else if req.status ≠ .approved then
    .error s!"request status '{req.status.value}' is not executable (needs two-person approval)"
  else if req.identityVerified = false then .error "data-subject identity not verified for this request"
  else if req.verifiedBy.isNone ∨ req.verifiedAt.isNone then
    .error "incomplete verification record (missing verifier or timestamp)"
  else if req.verificationMethod ∉ allowedVerificationMethods then
    .error "incomplete verification record (missing/invalid method category)"
  else if req.approvedBy.isNone ∨ req.approvedAt.isNone then .error "request has no recorded approval"
  else if req.approvalRevoked then .error "the approval for this request has been revoked"
  else if req.approvalExpiresAt.any (· < now) then .error "the approval for this request has expired"
  else if req.requestedBy.isNone then
    .error "two-person rule: no requester recorded; cannot enforce separation of duties"
  else if req.verifiedBy = req.requestedBy then .error "two-person rule violated: verifier equals requester"
  else if req.approvedBy = req.requestedBy then .error "two-person rule violated: approver equals requester"
  else if req.approvedBy = req.verifiedBy then .error "two-person rule violated: approver equals verifier"
  else if req.assignedExecutor.isNone then .error "no assigned executor on the request"
  else if req.assignedExecutor = req.approvedBy then
    .error "two-person rule violated: assigned executor equals approver"
  else if req.subjectUserIdSnapshot = 0 then .error "request has no subject owner id"
  else if activeHold req.subjectUserIdSnapshot then
    .error "an active legal/security hold blocks erasure for this subject"
  else .ok req.subjectUserIdSnapshot

def markRequestHeld (reason : String) (req : ErasureRequest) : ErasureRequest :=
  { req with
    status := .held
    error := truncated 300 reason }

def planRequest (token : String) (now : ℤ) (req : ErasureRequest) : ErasureRequest :=
  if req.identityVerified then
    { req with
      confirmToken := token
      status := .planned
      plannedAt := some now }
  else req

/-! ### File deletions -/

/-- What becomes of the file of a task. -/
inductive Removal
  /-- A live blob has the same content. -/
  | retained
  | removed
  | absent
  | raised (error : String)
  deriving DecidableEq, Repr

def attempted (removal : Removal) (now : ℤ) (task : DeletionTask) : DeletionTask :=
  let attempts := task.attempts + 1
  let completed (lastError : String) : DeletionTask :=
    { task with
      attempts := attempts
      status := .completed
      completedAt := some now
      lastError := lastError }
  match removal with
  | .retained => completed "content re-referenced by a live blob; file retained"
  | .removed => completed ""
  | .absent => completed "file already absent at processing time"
  | .raised error =>
    { task with
      attempts := attempts
      status := if maxDeletionAttempts ≤ attempts then .dead else .failed
      lastError := truncated 300 error }

def drained (r : ℕ) (tasks : Table DeletionTask) (req : ErasureRequest) : ErasureRequest :=
  if req.status ≠ .executed then req
  else if tasks.filter (fun _ task => task.request = r && task.isOpen) ≠ [] then req
  else if tasks.filter (fun _ task => task.request = r && task.status = .dead) ≠ [] then
    { req with
      status := .failed
      error := "one or more file deletions dead-lettered; operator intervention required" }
  else { req with status := .completed }

/-! ### Workers -/

structure Worker where
  /-- The locked tasks that it has not attempted yet. -/
  todo : List ℕ
  done : List (ℕ × DeletionTask) := []
  concluded : List (ℕ × ErasureRequest) := []
  deriving DecidableEq, Repr

structure State where
  requests : Table ErasureRequest := Table.empty
  tasks : Table DeletionTask := Table.empty
  taskLocks : Locks ℕ := Locks.free
  requestLocks : Locks ℕ := Locks.free
  workers : ℕ → Option Worker := fun _ => none

/-- The tasks that a worker takes up. -/
def claimable (limit : ℕ) (s : State) : List ℕ :=
  (((s.tasks.filter fun k task => task.isOpen && (s.taskLocks k).isNone).map Prod.fst).insertionSort
    (· ≤ ·)).take limit

def State.setWorker (w : ℕ) (worker : Option Worker) (s : State) : State :=
  { s with workers := Function.update s.workers w worker }

def Worker.touches (r : ℕ) (worker : Worker) : Bool := worker.done.any fun e => e.2.request = r

inductive Action
  | create (subject : ℕ) (requestedBy : Option ℕ)
  | verify (r : ℕ) (verifier : Option ℕ) (method : String) (now : ℤ)
  | plan (r : ℕ) (token : String) (now : ℤ)
  | approve (r : ℕ) (approver assignedExecutor : Option ℕ) (approvalTtlMinutes now : ℤ)
  | hold (r : ℕ) (reason : String)
  /-- The governed procedure; the files that it finds. -/
  | execute (r : ℕ) (executor : ℕ) (files : List (TaskKind × String)) (now : ℤ)
  /-- A worker locks the tasks that it takes up. -/
  | claim (w limit : ℕ)
  /-- A worker attempts its next task. -/
  | attempt (w : ℕ) (removal : Removal) (now : ℤ)
  /-- A worker locks a request that it has touched and looks at it. -/
  | conclude (w r : ℕ)
  | commit (w : ℕ)
  /-- The transaction of a worker is rolled back. -/
  | abort (w : ℕ)

def State.writeRequest (r : ℕ) (f : ErasureRequest → ErasureRequest) (s : State) : State :=
  match s.requestLocks r with
  | none => { s with requests := s.requests.modify r f }
  | some _ => s

/-- The row that an operation returns, or the one that there was if it refuses. -/
def unlessRefused (f : ErasureRequest → Except String ErasureRequest) (req : ErasureRequest) :
    ErasureRequest :=
  match f req with
  | .ok req' => req'
  | .error _ => req

def enqueue (r : ℕ) (files : List (TaskKind × String)) (tasks : Table DeletionTask) : Table DeletionTask :=
  files.dedup.foldl (fun tasks file => tasks.insert tasks.fresh
    { request := r
      kind := file.1
      targetRef := file.2 }) tasks

/-- The governed procedure. -/
def execute (r executor : ℕ) (files : List (TaskKind × String)) (now : ℤ) (s : State) : State :=
  match s.requests.get r, s.requestLocks r with
  | some req, none =>
    if req.status = .approved then
      { s with
        tasks := enqueue r files s.tasks
        requests := s.requests.modify r fun req =>
          { req with
            status := .executed
            executedAt := some now
            executedBy := some executor } }
    else s
  | _, _ => s

/-- The end of a transaction: the locks are given up. -/
def State.finish (w : ℕ) (s : State) : State :=
  { s with
    taskLocks := s.taskLocks.release w
    requestLocks := s.requestLocks.release w
    workers := Function.update s.workers w none }

def step (s : State) : Action → State
  | .create subject requestedBy =>
    let req : ErasureRequest :=
      { subjectUserIdSnapshot := subject
        requestedBy := requestedBy }
    { s with requests := s.requests.insert s.requests.fresh req }
  | .verify r verifier method now => s.writeRequest r (unlessRefused (verifyIdentity verifier method now))
  | .plan r token now => s.writeRequest r (planRequest token now)
  | .approve r approver assignedExecutor approvalTtlMinutes now =>
    s.writeRequest r (unlessRefused (approveRequest approver assignedExecutor approvalTtlMinutes now))
  | .hold r reason => s.writeRequest r (markRequestHeld reason)
  | .execute r executor files now => execute r executor files now s
  | .claim w limit =>
    match s.workers w with
    | some _ => s
    | none =>
      let ids := claimable limit s
      { s with
        taskLocks := fun k => if k ∈ ids then some w else s.taskLocks k
        workers := Function.update s.workers w (some { todo := ids }) }
  | .attempt w removal now =>
    match s.workers w with
    | some { todo := k :: todo, done, concluded } =>
      match s.tasks.get k with
      | some task =>
        let version := attempted removal now task
        s.setWorker w (some { todo := todo, done := done ++ [(k, version)], concluded := concluded })
      | none => s
    | _ => s
  | .conclude w r =>
    match s.workers w, s.requests.get r with
    | some worker, some req =>
      if worker.todo = [] ∧ worker.touches r = true ∧ s.requestLocks r = none then
        let version := drained r (s.tasks.overlay worker.done) req
        let concluded := worker.concluded ++ [(r, version)]
        { s with
          requestLocks := s.requestLocks.take r w
          workers := Function.update s.workers w (some { worker with concluded := concluded }) }
      else s
    | _, _ => s
  | .commit w =>
    match s.workers w with
    | some worker =>
      if worker.todo = [] ∧ ∀ e ∈ worker.done, e.2.request ∈ worker.concluded.map Prod.fst then
        State.finish w
          { s with
            tasks := s.tasks.overlay worker.done
            requests := s.requests.overlay worker.concluded }
      else s
    | none => s
  | .abort w =>
    match s.workers w with
    | some _ => s.finish w
    | none => s

end Erasure
end BrokerIntelligence
end GuvFX
