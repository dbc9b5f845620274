/-
# The slot store of the management agent

The agent runs each runtime in one of the slots of a fixed pool.  The store remembers which runtime
occupies which slot, counts the occupancies of each slot in a generation, keeps a ledger of the
generations, and marks the slots that an operator has to look at.

The calls come from several threads.  A call first makes its checks, each a read of its own; then it
takes the lock of the store, reads, writes statement by statement and commits.  A crash of the process
loses the calls and what is not committed.
-/
import Mathlib.Data.List.Sort
import GuvFX.Lib.Checks
import GuvFX.Lib.Rows
import GuvFX.Lib.Runs
import GuvFX.Lib.Text

namespace GuvFX
namespace SlotStore

open Runs Checks

/-! ### The tables -/

/-- A slot of the pool; a slot without a runtime is free. -/
structure SlotRow where
  slot : ℤ
  runtimeUuid : Option String
  /-- The number of the occupancy, which a release advances. -/
  generation : ℤ
  assignedAt : Option ℤ
  deriving DecidableEq, Repr

inductive LedgerEvent
  | init | release
  deriving DecidableEq, Repr

structure LedgerRow where
  slot : ℤ
  generation : ℤ
  event : LedgerEvent
  at_ : ℤ
  deriving DecidableEq, Repr

/-- A slot that has failed an assertion. -/
structure QuarantineRow where
  slot : ℤ
  reason : String
  at_ : ℤ
  generation : Option ℤ
  deriving DecidableEq, Repr

/-- Why no slot may be handed out. -/
structure AllocationBlock where
  reason : String
  at_ : ℤ
  deriving DecidableEq, Repr

/-- The tables of the store. -/
structure Db where
  slots : Rows SlotRow SlotRow.slot
  slotGenerations : Rows LedgerRow fun r => (r.slot, r.generation)
  slotQuarantine : Rows QuarantineRow QuarantineRow.slot
  allocationBlock : Option AllocationBlock
  deriving DecidableEq

/-- The tables of a new store. -/
def Db.initial : Db := ⟨.empty, .empty, .empty, none⟩

def generationStart : ℤ := 1

/-- The generations `1, 2, …` of `n` occupancies. -/
def generationSeq (n : ℕ) : List ℤ := (List.range n).map fun i : ℕ => generationStart + i

namespace Db

def slotOf (db : Db) (uid : String) : Option SlotRow :=
  db.slots.rows.find? fun r => r.runtimeUuid = some uid

def generationOf (db : Db) (slot : ℤ) : Option ℤ := (db.slots.get slot).map (·.generation)

def occupant (db : Db) (slot : ℤ) : Option String := (db.slots.get slot).bind (·.runtimeUuid)

def ledger (db : Db) (slot : ℤ) : List ℤ :=
  (db.slotGenerations.rows.filter fun r => r.slot = slot).map (·.generation)

def isQuarantined (db : Db) (slot : ℤ) : Bool := (db.slotQuarantine.get slot).isSome

/-- Is the ledger of the slot the sequence of the generations up to the expected one, which is also
the one that the slot has? -/
def generationMonotonic (db : Db) (slot expected : ℤ) : Bool :=
  let gens := (db.ledger slot).insertionSort (· ≤ ·)
  match gens.getLast?, db.generationOf slot with
  | some last, some generation =>
    gens = generationSeq gens.length ∧ last = generation ∧ generation = expected
  | _, _ => false

def lowestFree (db : Db) (poolSize : ℕ) : Option ℤ :=
  ((List.range poolSize).map fun i : ℕ => (i : ℤ) + 1).find? fun slot => db.occupant slot = none

end Db

/-! ### The statements -/

inductive Statement
  /-- Open a transaction. -/
  | beginImmediate
  /-- Give a slot that has a row to a runtime. -/
  | occupy (slot : ℤ) (uid : String) (now : ℤ)
  | insertSlot (row : SlotRow)
  | vacate (slot generation : ℤ)
  | insertGeneration (row : LedgerRow)
  | insertOrIgnoreGeneration (row : LedgerRow)
  | insertOrReplaceQuarantine (row : QuarantineRow)
  | deleteQuarantine (slot : ℤ)
  | insertOrReplaceBlock (block : AllocationBlock)
  | deleteBlock
  deriving DecidableEq, Repr

def SlotRow.occupy (slot : ℤ) (uid : String) (now : ℤ) (r : SlotRow) : SlotRow :=
  if r.slot = slot then { r with runtimeUuid := some uid, assignedAt := some now } else r

def SlotRow.vacate (slot generation : ℤ) (r : SlotRow) : SlotRow :=
  if r.slot = slot then { r with runtimeUuid := none, assignedAt := none, generation } else r

@[simp] lemma SlotRow.slot_occupy (slot : ℤ) (uid : String) (now : ℤ) (r : SlotRow) :
    (r.occupy slot uid now).slot = r.slot := by
  unfold SlotRow.occupy
  split <;> rfl

@[simp] lemma SlotRow.slot_vacate (slot generation : ℤ) (r : SlotRow) :
    (r.vacate slot generation).slot = r.slot := by
  unfold SlotRow.vacate
  split <;> rfl

/-- The tables after a statement; none if the statement violates a constraint. -/
def Db.exec (db : Db) : Statement → Option Db
  | .beginImmediate => some db
  | .occupy slot uid now =>
    -- no two slots have the same runtime
    if ∃ r ∈ db.slots.rows, r.slot ≠ slot ∧ r.runtimeUuid = some uid then none
    else some { db with slots := db.slots.modify (SlotRow.occupy slot uid now) (by simp) }
  | .insertSlot row =>
    if ∃ r ∈ db.slots.rows, r.runtimeUuid.isSome ∧ r.runtimeUuid = row.runtimeUuid then none
    else (db.slots.insert row).map fun slots => { db with slots }
  | .vacate slot generation =>
    some { db with slots := db.slots.modify (SlotRow.vacate slot generation) (by simp) }
  | .insertGeneration row =>
    (db.slotGenerations.insert row).map fun slotGenerations => { db with slotGenerations }
  | .insertOrIgnoreGeneration row =>
    some { db with slotGenerations := db.slotGenerations.insertOrIgnore row }
  | .insertOrReplaceQuarantine row =>
    some { db with slotQuarantine := db.slotQuarantine.insertOrReplace row }
  | .deleteQuarantine slot =>
    some { db with slotQuarantine := db.slotQuarantine.delete (·.slot = slot) }
  | .insertOrReplaceBlock block => some { db with allocationBlock := some block }
  | .deleteBlock => some { db with allocationBlock := none }

def Db.execAll (db : Db) : List Statement → Option Db
  | [] => some db
  | st :: sts => (db.exec st).bind fun db' => db'.execAll sts

/-- The connection of the store: what is committed, and the tables as the open transaction has left
them. -/
structure Conn where
  committed : Db
  txn : Option Db
  deriving DecidableEq

namespace Conn

/-- The tables as the connection sees them. -/
def view (c : Conn) : Db := c.txn.getD c.committed

/-- Execute a statement; the first one opens a transaction. -/
def exec (c : Conn) (st : Statement) : Option Conn :=
  if st = .beginImmediate ∧ c.txn.isSome then none
  else (c.view.exec st).map fun db => { c with txn := some db }

def commit (c : Conn) : Conn := ⟨c.view, none⟩

def rollback (c : Conn) : Conn := { c with txn := none }

end Conn

/-! ### The calls -/

/-- What an operator hands over with the release of a slot. -/
structure ReleaseArgs where
  runtimeUuid : String
  slot : ℤ
  generation : ℤ
  /-- The names of the proofs that are given as true. -/
  proofs : List String
  now : ℤ
  deriving DecidableEq, Repr

/-- What an operator hands over with the clearance of a quarantine. -/
structure ClearArgs where
  slot : ℤ
  diagnosedReason : String
  operatorIdentity : String
  evidenceReference : String
  reconciliationConfirmed : Bool
  noRuntimeProcessConfirmed : Bool
  slotDirectorySafeConfirmed : Bool
  generation : Option ℤ
  deriving DecidableEq, Repr

/-- The operations of the store. -/
inductive Op
  | lookup (uid : String)
  | assign (uid : String) (now : ℤ)
  | release (uid : String) (now : ℤ)
  | releaseAfterTombstone (args : ReleaseArgs)
  | quarantineSlot (slot : ℤ) (reason : String) (now : ℤ)
  | clearQuarantine (args : ClearArgs)
  | blockAllocation (reason : String) (now : ℤ)
  | clearAllocationBlock (operatorIdentity evidenceReference : String)
  deriving DecidableEq, Repr

/-- How a call ends. -/
inductive Answer
  | found (slot : Option (ℤ × ℤ))
  | assigned (slot generation : ℤ)
  /-- The plain release, and whether it has freed a slot. -/
  | released (freed : Bool)
  /-- The release after a tombstone, with the new generation. -/
  | advanced (generation : ℤ)
  | finished
  | allocationBlocked (reason : String)
  | poolExhausted
  | releaseProofMissing (missing : List String)
  | slotIntegrityMismatch
  | clearanceRefused (detail : String)
  | databaseError
  deriving DecidableEq, Repr

def releaseProofs : List String :=
  ["runtime_process_stopped", "process_identity_verified", "canonical_directory_tombstoned",
    "tombstone_evidence_persisted", "no_ambiguous_provisioning_job", "no_mutation_lock_held",
    "slot_release_audit_persisted"]

/-- Where a call is. -/
inductive Stage
  /-- Nothing has been read. -/
  | entered
  /-- The slot was not quarantined (a release), or was (a clearance). -/
  | quarantineRead
  | generationRead (generation : ℤ)
  /-- Only the locked section is left. -/
  | ready
  /-- The call holds the lock, and has these statements left before it commits. -/
  | writing (todo : List Statement) (answer : Answer)
  | done (answer : Answer)
  deriving DecidableEq, Repr

structure Call where
  op : Op
  stage : Stage
  deriving DecidableEq, Repr

/-- The operations that read before they take the lock. -/
def Op.firstStage : Op → Stage
  | .assign .. | .releaseAfterTombstone _ | .clearQuarantine _ | .clearAllocationBlock .. => .entered
  | _ => .ready

def isBlank (text : String) : Bool := Text.strip text = ""

/-- The conditions on the arguments of a clearance, with the details of the refusals. -/
def ClearArgs.checks (args : ClearArgs) : List (Bool × String) :=
  [(!isBlank args.diagnosedReason, "diagnosed_reason is required"),
    (!isBlank args.operatorIdentity, "operator_identity is required"),
    (!isBlank args.evidenceReference, "evidence_reference is required"),
    (args.reconciliationConfirmed, "reconciliation_confirmed must be explicitly confirmed"),
    (args.noRuntimeProcessConfirmed, "no_runtime_process_confirmed must be explicitly confirmed"),
    (args.slotDirectorySafeConfirmed, "slot_directory_safe_confirmed must be explicitly confirmed")]

/-- The next check of a call that has not taken the lock yet. -/
def Op.check (op : Op) (stage : Stage) (db : Db) : Stage :=
  match op, stage with
  | .assign _ _, .entered =>
    match db.allocationBlock with
    | some block => .done (.allocationBlocked block.reason)
    | none => .ready
  | .releaseAfterTombstone args, .entered =>
    let missing := releaseProofs.filter fun p => p ∉ args.proofs
    if missing ≠ [] then .done (.releaseProofMissing missing)
    else if db.isQuarantined args.slot then .done .slotIntegrityMismatch
    else .quarantineRead
  | .releaseAfterTombstone args, .quarantineRead =>
    if db.generationMonotonic args.slot args.generation then .ready
    else .done .slotIntegrityMismatch
  | .clearQuarantine args, .entered =>
    match firstRefusal args.checks with
    | some detail => .done (.clearanceRefused detail)
    | none =>
      if db.isQuarantined args.slot then .quarantineRead
      else .done (.clearanceRefused "slot is not quarantined")
  | .clearQuarantine args, .quarantineRead =>
    match args.generation.or (db.generationOf args.slot) with
    | some generation => .generationRead generation
    | none => .done (.clearanceRefused "slot has no generation history")
  | .clearQuarantine args, .generationRead generation =>
    if db.generationMonotonic args.slot generation then .ready
    else .done .slotIntegrityMismatch
  | .clearAllocationBlock operatorIdentity evidenceReference, .entered =>
    if isBlank operatorIdentity || isBlank evidenceReference then
      .done (.clearanceRefused "operator_identity and evidence_reference are required")
    else .ready
  | _, stage => stage

/-- What a call does under the lock: the statements that it will execute before it commits and the
answer after that, or the answer that it gives without a write. -/
def Op.locked (op : Op) (poolSize : ℕ) (db : Db) : Except Answer (List Statement × Answer) :=
  match op with
  | .lookup uid => .error (.found ((db.slotOf uid).map fun r => (r.slot, r.generation)))
  | .assign uid now =>
    match db.slotOf uid with
    | some row => .error (.assigned row.slot row.generation)
    | none =>
      match db.lowestFree poolSize with
      | none => .error .poolExhausted
      | some slot =>
        match db.slots.get slot with
        | some row => .ok ([.occupy slot uid now], .assigned slot row.generation)
        | none =>
          .ok ([.insertSlot ⟨slot, some uid, generationStart, some now⟩,
            .insertOrIgnoreGeneration ⟨slot, generationStart, .init, now⟩],
            .assigned slot generationStart)
  | .release uid now =>
    match db.slotOf uid with
    | none => .error (.released false)
    | some row =>
      .ok ([.vacate row.slot (row.generation + 1),
        .insertOrIgnoreGeneration ⟨row.slot, row.generation + 1, .release, now⟩], .released true)
  | .releaseAfterTombstone args =>
    match db.slotOf args.runtimeUuid with
    | none => .error .slotIntegrityMismatch
    | some row =>
      if row.slot ≠ args.slot ∨ row.generation ≠ args.generation then .error .slotIntegrityMismatch
      else
        .ok ([.beginImmediate, .vacate args.slot (args.generation + 1),
          .insertGeneration ⟨args.slot, args.generation + 1, .release, args.now⟩],
          .advanced (args.generation + 1))
  | .quarantineSlot slot reason now =>
    .ok ([.insertOrReplaceQuarantine
      ⟨slot, Text.clip 64 reason, now, db.generationOf slot⟩], .finished)
  | .clearQuarantine args => .ok ([.deleteQuarantine args.slot], .finished)
  | .blockAllocation reason now =>
    .ok ([.insertOrReplaceBlock ⟨Text.clip 96 reason, now⟩], .finished)
  | .clearAllocationBlock _ _ => .ok ([.deleteBlock], .finished)

/-! ### The system -/

abbrev PoolSize := { n : ℕ // 1 ≤ n }

/-- The store with the calls on it. -/
structure State where
  poolSize : PoolSize
  conn : Conn
  lock : Option ℕ
  calls : ℕ → Option Call

/-- A store that has just been opened on these tables. -/
def State.open (poolSize : PoolSize) (db : Db) : State := ⟨poolSize, ⟨db, none⟩, none, fun _ => none⟩

/-- A store that has never been used. -/
def State.initial (poolSize : PoolSize) : State := .open poolSize .initial

def State.db (s : State) : Db := s.conn.committed

/-- What can happen. -/
inductive Action
  | call (id : ℕ) (op : Op)
  /-- A call makes its next step. -/
  | advance (id : ℕ)
  /-- The process dies, and the store is opened again. -/
  | crash (poolSize : PoolSize)
  deriving DecidableEq

def State.withStage (s : State) (id : ℕ) (op : Op) (stage : Stage) : State :=
  { s with calls := Function.update s.calls id (some ⟨op, stage⟩) }

def takeLock (s : State) (id : ℕ) (op : Op) : State :=
  match op.locked s.poolSize s.conn.view with
  | .error answer => s.withStage id op (.done answer)
  | .ok (todo, answer) => { s.withStage id op (.writing todo answer) with lock := some id }

/-- A statement has been refused: the release after a tombstone rolls back, the other calls leave
what they have written. -/
def abandon (s : State) (id : ℕ) (op : Op) : State :=
  let conn := match op with
    | .releaseAfterTombstone _ => s.conn.rollback
    | _ => s.conn
  { s.withStage id op (.done .databaseError) with conn, lock := none }

/-- The next step of a call. -/
def advance (s : State) (id : ℕ) : State :=
  match s.calls id with
  | none => s
  | some ⟨op, stage⟩ =>
    match stage with
    | .done _ => s
    | .writing (st :: todo) answer =>
      match s.conn.exec st with
      | some conn => { s.withStage id op (.writing todo answer) with conn }
      | none => abandon s id op
    | .writing [] answer =>
      { s.withStage id op (.done answer) with conn := s.conn.commit, lock := none }
    | .ready => if s.lock = none then takeLock s id op else s
    | stage => if s.lock = none then s.withStage id op (op.check stage s.conn.view) else s

/-- The system of the calls. -/
def step (s : State) : Action → State
  | .call id op => if s.calls id = none then s.withStage id op op.firstStage else s
  | .advance id => advance s id
  | .crash poolSize => .open poolSize s.db

end SlotStore
end GuvFX
