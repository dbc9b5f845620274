/-
# The operations on a slot of the pool

A runtime is staged into the directory of its slot, started, stopped, moved away and released.  Each
operation is a short program: it takes the lock of the runtime, looks up the slot, checks the marker of
the directory, works on the host stage by stage and records the status of every stage.  The release
takes no lock.  It looks for a live process and at the recorded stages, and frees the slot.

Every step of a program is a step of the system, and so is what the scheduler of the host does with a
task that has been triggered.  What a step finds out about the host beyond the state, and how a call of
the host ends, is its input.
-/
import GuvFX.BetaAgent.RuntimeLocks
import GuvFX.BetaAgent.SlotMoves

namespace GuvFX
namespace SlotStore

/-- The tables after an operation has taken the lock of the store, and its answer. -/
def Db.apply (db : Db) (poolSize : ℕ) (op : Op) : Db × Answer :=
  match op.locked poolSize db with
  | .error answer => (db, answer)
  | .ok (todo, answer) =>
    match (Conn.mk db none).execAll todo with
    | some conn => (conn.view, answer)
    | none => (db, .databaseError)

end SlotStore

namespace PoolOps

open SlotStore (Db)

/-! ### The operations and their programs -/

/-- The operations on a runtime. -/
inductive PoolOp
  | materialise | start | verify | stop | tombstone | release
  deriving DecidableEq, Repr

/-- The operations that change the host; they hold the lock of the runtime. -/
def PoolOp.mutating : PoolOp → Bool
  | .materialise | .start | .stop | .tombstone => true
  | .verify | .release => false

/-- The stages that are recorded. -/
inductive StageName
  | stageCopy | precheckLaunchTask | requestLaunch | confirmLaunch | precheckTerminateTask
  | requestTerminate | confirmTerminated | precheckCleanup | tombstone | verifyCleanup
  deriving DecidableEq, Repr

/-- What has happened to a stage. -/
inductive Status
  | requested | completed | alreadyCompleted | blocked | failed
  deriving DecidableEq, Repr

/-- The statuses of a stage with which its operation goes on. -/
def StageName.accepts : StageName → Status → Bool
  | .stageCopy, status | .tombstone, status => status = .completed ∨ status = .alreadyCompleted
  | .requestLaunch, status | .requestTerminate, status => status = .requested
  | _, status => status = .completed

/-- The steps of the programs. -/
inductive Prim
  | lock | resolve | readMarker | gate
  | precheckCopy
  | copy
  | copyEnd | writeOwnerTag
  /-- The look at what has been staged. -/
  | postCheck
  | record (stage : StageName)
  | writeCommonIni
  /-- The look before a launch: a process that runs is enough. -/
  | observeIdle
  | checkTask
  | triggerLaunch | confirmLaunch | triggerTerminate | confirmTerminated
  | lookDirectory | lookTasks | lookProcess | lookHandles
  | recordProofs (stage : StageName)
  | precheckMove | moveDir
  /-- The look before a release: no process may run. -/
  | observeAbsent
  | auditCheckpoint | readEvidence | assertEvidence
  | checkProofs | checkQuarantine | checkMonotonic | advance
  /-- The look of a verification. -/
  | observe
  deriving DecidableEq, Repr

def PoolOp.program : PoolOp → List Prim
  | .materialise => [.lock, .resolve, .readMarker, .gate, .precheckCopy, .copy, .copyEnd,
      .writeOwnerTag, .postCheck, .record .stageCopy, .writeCommonIni]
  | .start => [.lock, .resolve, .readMarker, .gate, .observeIdle, .checkTask,
      .record .precheckLaunchTask, .triggerLaunch, .record .requestLaunch, .confirmLaunch,
      .record .confirmLaunch]
  | .verify => [.resolve, .observe]
  | .stop => [.lock, .resolve, .readMarker, .gate, .checkTask, .record .precheckTerminateTask,
      .triggerTerminate, .record .requestTerminate, .confirmTerminated, .record .confirmTerminated]
  | .tombstone => [.lock, .resolve, .readMarker, .gate, .lookDirectory, .lookTasks, .lookProcess,
      .lookHandles, .recordProofs .precheckCleanup, .precheckMove, .moveDir, .record .tombstone,
      .lookDirectory, .lookTasks, .lookProcess, .lookHandles, .recordProofs .verifyCleanup]
  | .release => [.resolve, .observeAbsent, .auditCheckpoint, .readEvidence, .assertEvidence,
      .checkProofs, .checkQuarantine, .checkMonotonic, .advance]

/-! ### The host and the store -/

/-- Who a directory belongs to. -/
structure Marker where
  runtimeUuid : String
  slot : ℤ
  generation : ℤ
  deriving DecidableEq, Repr

/-- The content of the directory of a slot. -/
structure Tree where
  /-- The occupancies that have staged content, by their generations. -/
  staged : List ℤ
  /-- Has the last copy come to its end? -/
  complete : Bool
  marker : Option Marker
  deriving DecidableEq, Repr

/-- The recorded status of a stage. -/
structure EvidenceRow where
  slot : ℤ
  generation : ℤ
  operation : StageName
  stageStatus : Status
  deriving DecidableEq, Repr

/-- What has happened to the directory of an occupancy. -/
inductive History
  | untouched
  | staged
  /-- A cleanup has been recorded as completed. -/
  | cleaned
  /-- Content has been staged after that. -/
  | restaged
  deriving DecidableEq, Repr

def History.stage : History → History
  | .untouched | .staged => .staged
  | .cleaned | .restaged => .restaged

/-- The tables, the locks and the host. -/
structure World where
  db : Db
  evidence : List EvidenceRow
  locks : RuntimeLocks
  trees : ℤ → Option Tree
  /-- The launches that have been triggered in a slot and may still start a process, by the
  generations of their occupancies. -/
  launches : ℤ → List ℤ
  /-- The processes that run in a slot, by the generations in which they were launched. -/
  processes : ℤ → List ℤ
  /-- The histories of the occupancies. -/
  history : ℤ × ℤ → History
  /-- The occupancies that have been looked up, with their runtimes. -/
  holders : List (ℤ × ℤ × String)

/-- What is seen of the process of a slot. -/
inductive Observation
  | absent | presentValid
  /-- An invalid process, several processes, or an observation that has failed. -/
  | unclear
  deriving DecidableEq, Repr

/-- What a step learns from the host, and how its call of the host ends. -/
structure Input where
  /-- The call succeeds, or the answers beyond the state are the expected ones. -/
  ok : Bool := true
  /-- A call that fails has had its effect nevertheless. -/
  effect : Bool := false
  seen : Observation := .absent
  now : ℤ := 0
  deriving DecidableEq, Repr

/-- What an observation of a slot can give: no absence while a process runs, and no process while none
runs. -/
def World.observation (w : World) (slot : ℤ) (seen : Observation) : Observation :=
  match seen with
  | .absent => if w.processes slot = [] then .absent else .unclear
  | .presentValid => if w.processes slot = [] then .unclear else .presentValid
  | .unclear => .unclear

/-! ### The requests -/

/-- What an operation has found out. -/
structure Ctx where
  slot : ℤ
  generation : ℤ
  markerRaw : Option Marker := none
  /-- The status of the stage under way, if it is decided. -/
  status : Option Status := none
  slotDirectoryEmpty : Bool := false
  noTaskRunning : Bool := false
  noRuntimeProcess : Bool := false
  noRuntimeHandles : Bool := false
  /-- The recorded evidence says that the directory was moved away. -/
  moved : Bool := false
  /-- The recorded evidence says that the cleanup was completed. -/
  cleanup : Bool := false
  deriving DecidableEq, Repr

/-- Where an operation is. -/
inductive Phase
  | running (todo : List Prim)
  /-- The operation is over, and still has the lock of its runtime. -/
  | over (succeeded : Bool)
  | answered (succeeded : Bool)
  deriving DecidableEq, Repr

/-- A request. -/
structure Thread where
  op : PoolOp
  runtime : String
  phase : Phase
  ctx : Option Ctx
  deriving DecidableEq, Repr

/-- What a step of a program does. -/
inductive Result
  | next (w : World) (ctx : Option Ctx)
  /-- The operation has its answer. -/
  | finish (w : World) (ctx : Option Ctx)
  | refuse (w : World)

/-- Look up the slot of a runtime; staging assigns one. -/
def resolve (poolSize : ℕ) (w : World) (op : PoolOp) (runtime : String) (now : ℤ) : Result :=
  if op = .materialise then
    if w.db.allocationBlock.isSome then .refuse w
    else
      match w.db.apply poolSize (.assign runtime now) with
      | (db, .assigned slot generation) =>
        .next { w with db, holders := (slot, generation, runtime) :: w.holders }
          (some { slot, generation })
      | (db, _) => .refuse { w with db }
  else
    match w.db.slotOf runtime with
    | some row =>
      .next { w with holders := (row.slot, row.generation, runtime) :: w.holders }
        (some { slot := row.slot, generation := row.generation })
    | none => .refuse w

/-- The assertion that the tables and the marker agree on an occupancy; a slot that fails it is put
under quarantine. -/
def assertOccupancyIntegrity (poolSize : ℕ) (w : World) (runtime : String) (ctx : Ctx) (now : ℤ) :
    Result :=
  if w.db.isQuarantined ctx.slot then .refuse w
  else if ctx.markerRaw = some ⟨runtime, ctx.slot, ctx.generation⟩ ∧
      w.db.generationMonotonic ctx.slot ctx.generation then .next w (some ctx)
  else
    .refuse { w with
      db := (w.db.apply poolSize (.quarantineSlot ctx.slot "integrity_assertion_failed" now)).1 }

def gateWithoutMarker (w : World) (ctx : Ctx) (agree : Bool) : Result :=
  if w.db.isQuarantined ctx.slot then .refuse w
  else if agree ∧ w.db.generationMonotonic ctx.slot ctx.generation then .next w (some ctx)
  else .refuse w

def gate (poolSize : ℕ) (w : World) (op : PoolOp) (runtime : String) (ctx : Ctx) (now : ℤ) : Result :=
  match op, ctx.markerRaw with
  | .materialise, none => gateWithoutMarker w ctx true
  | .tombstone, none =>
    gateWithoutMarker w ctx ((w.db.slotOf runtime).any fun row =>
      row.slot = ctx.slot ∧ row.generation = ctx.generation)
  | _, _ => assertOccupancyIntegrity poolSize w runtime ctx now

/-- Is the content of a directory what it should be? -/
def Tree.passes (tree : Tree) : Bool := tree.complete && tree.marker.isSome

/-- The conditions of a copy, and the look at a directory that is there already. -/
def precheckCopy (w : World) (ctx : Ctx) (input : Input) : Option Status :=
  if ¬ input.ok ∨ w.db.generationOf ctx.slot ≠ some ctx.generation then some .blocked
  else
    match w.trees ctx.slot with
    | none => none
    | some tree => if tree.passes then some .alreadyCompleted else some .blocked

def World.withTree (w : World) (slot : ℤ) (tree : Option Tree) : World :=
  { w with trees := Function.update w.trees slot tree }

/-- Content begins to appear in a directory. -/
def World.stage (w : World) (slot generation : ℤ) : World :=
  let tree : Tree := (w.trees slot).getD ⟨[], false, none⟩
  { w.withTree slot (some { tree with staged := generation :: tree.staged, complete := false }) with
    history := Function.update w.history (slot, generation) (w.history (slot, generation)).stage }

def World.record (w : World) (ctx : Ctx) (stage : StageName) (status : Status) : World :=
  { w with
    evidence := w.evidence ++ [⟨ctx.slot, ctx.generation, stage, status⟩]
    history :=
      if stage = .verifyCleanup ∧ status = .completed then
        Function.update w.history (ctx.slot, ctx.generation) .cleaned
      else w.history }

def recordStage (w : World) (ctx : Ctx) (stage : StageName) (status : Status) : Result :=
  if stage.accepts status then .next (w.record ctx stage status) (some { ctx with status := none })
  else .refuse (w.record ctx stage status)

def Ctx.proofStatus (ctx : Ctx) (stage : StageName) : Status :=
  let provable := ctx.noTaskRunning && ctx.noRuntimeProcess && ctx.noRuntimeHandles
  if stage = .verifyCleanup then
    if ctx.slotDirectoryEmpty && provable then .completed else .failed
  else if provable then .completed else .blocked

/-- The recorded stages of an occupancy. -/
def World.evidenceOf (w : World) (slot generation : ℤ) : List EvidenceRow :=
  w.evidence.filter fun e => e.slot = slot ∧ e.generation = generation

def lastStatus (rows : List EvidenceRow) (stage : StageName) : Option Status :=
  (rows.reverse.find? fun e => e.operation = stage).map (·.stageStatus)

def Ctx.proofs (ctx : Ctx) : List String :=
  ["runtime_process_stopped", "process_identity_verified"] ++
    (if ctx.moved then ["canonical_directory_tombstoned"] else []) ++
    (if ctx.cleanup then ["tombstone_evidence_persisted"] else []) ++
    ["no_ambiguous_provisioning_job", "no_mutation_lock_held", "slot_release_audit_persisted"]

/-- A step of a program, after the slot is known. -/
def execBound (poolSize : ℕ) (w : World) (op : PoolOp) (runtime : String) (ctx : Ctx)
    (input : Input) : Prim → Result
  | .readMarker =>
    .next w (some { ctx with markerRaw := (w.trees ctx.slot).bind (·.marker) })
  | .gate => gate poolSize w op runtime ctx input.now
  | .precheckCopy => .next w (some { ctx with status := precheckCopy w ctx input })
  | .copy =>
    if ctx.status.isSome then .next w (some ctx)
    else if ¬ input.ok then .next w (some { ctx with status := some .failed })
    else .next (w.stage ctx.slot ctx.generation) (some ctx)
  | .copyEnd =>
    if ctx.status.isSome then .next w (some ctx)
    else
      match w.trees ctx.slot with
      | some tree =>
        if input.ok then .next (w.withTree ctx.slot (some { tree with complete := true })) (some ctx)
        else .next w (some { ctx with status := some .failed })
      | none => .next w (some { ctx with status := some .failed })
  | .writeOwnerTag =>
    if ctx.status.isSome then .next w (some ctx)
    else
      match w.trees ctx.slot with
      | some tree =>
        if input.ok then
          .next (w.withTree ctx.slot
            (some { tree with marker := some ⟨runtime, ctx.slot, ctx.generation⟩ })) (some ctx)
        else .next w (some { ctx with status := some .failed })
      | none => .next w (some { ctx with status := some .failed })
  | .postCheck =>
    if ctx.status.isSome then .next w (some ctx)
    else
      let passes := input.ok && (w.trees ctx.slot).any Tree.passes
      .next w (some { ctx with status := some (if passes then .completed else .failed) })
  | .record stage =>
    match ctx.status with
    | some status => recordStage w ctx stage status
    | none => .refuse w
  | .writeCommonIni => if input.ok then .next w (some ctx) else .refuse w
  | .observeIdle =>
    match w.observation ctx.slot input.seen with
    | .presentValid => .finish w (some ctx)
    | .absent => .next w (some ctx)
    | .unclear => .refuse w
  | .checkTask => .next w (some { ctx with status := some (if input.ok then .completed else .blocked) })
  | .triggerLaunch =>
    let status := if input.ok then Status.requested else .failed
    let launches :=
      if input.ok || input.effect then
        Function.update w.launches ctx.slot (ctx.generation :: w.launches ctx.slot)
      else w.launches
    .next { w with launches } (some { ctx with status := some status })
  | .confirmLaunch =>
    let status := if w.observation ctx.slot input.seen = .presentValid then Status.completed else .failed
    .next w (some { ctx with status := some status })
  | .triggerTerminate =>
    .next w (some { ctx with status := some (if input.ok then .requested else .failed) })
  | .confirmTerminated =>
    let status := if w.observation ctx.slot input.seen = .absent then Status.completed else .failed
    .next w (some { ctx with status := some status })
  | .lookDirectory =>
    .next w (some { ctx with
      slotDirectoryEmpty := (w.trees ctx.slot).isNone
      noTaskRunning := false
      noRuntimeProcess := false
      noRuntimeHandles := false })
  | .lookTasks =>
    .next w (some { ctx with
      noTaskRunning := input.ok && (w.launches ctx.slot).isEmpty
      noRuntimeProcess := false })
  | .lookProcess =>
    .next w (some { ctx with noRuntimeProcess := w.observation ctx.slot input.seen = .absent })
  | .lookHandles =>
    .next w (some { ctx with
      noRuntimeHandles := input.ok ∧ w.db.generationOf ctx.slot = some ctx.generation })
  | .recordProofs stage => recordStage w ctx stage (ctx.proofStatus stage)
  | .precheckMove =>
    let status :=
      if (w.trees ctx.slot).isNone then some Status.alreadyCompleted
      else if input.ok then none else some .blocked
    .next w (some { ctx with status })
  | .moveDir =>
    if ctx.status.isSome then .next w (some ctx)
    else
      let w' := if input.ok || input.effect then w.withTree ctx.slot none else w
      .next w' (some { ctx with status := some (if input.ok then .completed else .failed) })
  | .observeAbsent =>
    if w.observation ctx.slot input.seen = .absent then .next w (some ctx) else .refuse w
  | .auditCheckpoint =>
    if input.ok then .next w (some ctx)
    else
      .refuse { w with db := (w.db.apply poolSize
        (.quarantineSlot ctx.slot "audit_chain_corrupt:before_release" input.now)).1 }
  | .readEvidence =>
    let rows := w.evidenceOf ctx.slot ctx.generation
    let moved := lastStatus rows .tombstone
    .next w (some { ctx with
      moved := moved = some .completed ∨ moved = some .alreadyCompleted
      cleanup := lastStatus rows .verifyCleanup = some .completed })
  | .assertEvidence => if input.ok then .next w (some ctx) else .refuse w
  | .checkProofs =>
    if ∀ p ∈ SlotStore.releaseProofs, p ∈ ctx.proofs then .next w (some ctx) else .refuse w
  | .checkQuarantine => if w.db.isQuarantined ctx.slot then .refuse w else .next w (some ctx)
  | .checkMonotonic =>
    if w.db.generationMonotonic ctx.slot ctx.generation then .next w (some ctx) else .refuse w
  | .advance =>
    match w.db.apply poolSize (.releaseAfterTombstone
        ⟨runtime, ctx.slot, ctx.generation, ctx.proofs, input.now⟩) with
    | (db, .advanced _) => .finish { w with db } (some ctx)
    | (db, _) => .refuse { w with db }
  | .observe =>
    if w.observation ctx.slot input.seen = .unclear then .refuse w else .finish w (some ctx)
  | .lock | .resolve => .refuse w

example (poolSize : ℕ) (w : World) (op : PoolOp) (runtime : String) (ctx : Ctx) (input : Input) :
    execBound poolSize w op runtime ctx input .lock = .refuse w := by
  simp [execBound]

def takeLock (w : World) (runtime : String) (id : ℕ) : Result :=
  match w.locks.takePermit with
  | .error _ => .refuse w
  | .ok locks =>
    match locks.lock runtime id with
    | .error _ => .refuse w
    | .ok locks => .next { w with locks } none

/-- A step of a program. -/
def exec (poolSize : ℕ) (w : World) (id : ℕ) (t : Thread) (input : Input) (p : Prim) : Result :=
  match p, t.ctx with
  | .lock, _ => takeLock w t.runtime id
  | .resolve, _ => resolve poolSize w t.op t.runtime input.now
  | p, some ctx => execBound poolSize w t.op t.runtime ctx input p
  | _, none => .refuse w

/-! ### The system -/

/-- The requests and what they work on. -/
structure State where
  poolSize : SlotStore.PoolSize
  world : World
  threads : ℕ → Option Thread

/-- What can happen. -/
inductive Action
  | request (id : ℕ) (op : PoolOp) (runtime : String)
  /-- An operation makes its next step. -/
  | step (id : ℕ) (input : Input)
  /-- A step raises an exception. -/
  | raise (id : ℕ)
  /-- The lock of an operation that is over is given up. -/
  | unlock (id : ℕ)
  /-- The host starts the process of a launch. -/
  | spawn (slot generation : ℤ)
  | taskEnds (slot generation : ℤ)
  /-- A process ends. -/
  | exit (slot generation : ℤ)
  | clearQuarantine (args : SlotStore.ClearArgs)
  deriving DecidableEq

def World.initial : World where
  db := .initial
  evidence := []
  locks := .initial 2
  trees := fun _ => none
  launches := fun _ => []
  processes := fun _ => []
  history := fun _ => .untouched
  holders := []

def State.initial (poolSize : SlotStore.PoolSize) : State := ⟨poolSize, .initial, fun _ => none⟩

/-- A request goes on. -/
def State.withThread (s : State) (id : ℕ) (t : Thread) : State :=
  { s with threads := Function.update s.threads id (some t) }

/-- Where an operation is when it is over: one that has the lock gives it up first. -/
def Thread.ended (t : Thread) (ctx : Option Ctx) (succeeded : Bool) : Thread :=
  { t with phase := if t.op.mutating then .over succeeded else .answered succeeded, ctx }

/-- Where an operation is when it has been refused the lock, or anything later. -/
def Thread.refused (t : Thread) (p : Prim) : Thread :=
  if p = .lock then { t with phase := .answered false } else t.ended t.ctx false

def stepThread (s : State) (id : ℕ) (t : Thread) (p : Prim) (rest : List Prim) (input : Input) :
    State :=
  match exec s.poolSize s.world id t input p with
  | .next w ctx =>
    let t' := if rest = [] then t.ended ctx true else { t with phase := .running rest, ctx }
    { s.withThread id t' with world := w }
  | .finish w ctx => { s.withThread id (t.ended ctx true) with world := w }
  | .refuse w => { s.withThread id (t.refused p) with world := w }

/-- The system of the requests and the host. -/
def step (s : State) : Action → State
  | .request id op runtime =>
    match s.threads id with
    | none => s.withThread id ⟨op, runtime, .running op.program, none⟩
    | some _ => s
  | .step id input =>
    match s.threads id with
    | some t =>
      match t.phase with
      | .running (p :: rest) => stepThread s id t p rest input
      | _ => s
    | none => s
  | .raise id =>
    match s.threads id with
    | some t =>
      match t.phase with
      | .running (p :: _) => s.withThread id (t.refused p)
      | _ => s
    | none => s
  | .unlock id =>
    match s.threads id with
    | some t =>
      match t.phase with
      | .over succeeded =>
        { s.withThread id { t with phase := .answered succeeded } with
          world := { s.world with locks := (s.world.locks.unlock id).returnPermit } }
      | _ => s
    | none => s
  | .spawn slot generation =>
    if generation ∈ s.world.launches slot then
      { s with world := { s.world with
        processes := Function.update s.world.processes slot (generation :: s.world.processes slot) } }
    else s
  | .taskEnds slot generation =>
    { s with world := { s.world with
      launches := Function.update s.world.launches slot ((s.world.launches slot).erase generation) } }
  | .exit slot generation =>
    { s with world := { s.world with
      processes := Function.update s.world.processes slot
        ((s.world.processes slot).erase generation) } }
  | .clearQuarantine args =>
    { s with world := { s.world with
      db := (s.world.db.apply s.poolSize (.clearQuarantine args)).1 } }

end PoolOps
end GuvFX
