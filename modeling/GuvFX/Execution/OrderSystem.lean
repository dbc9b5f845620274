/-
# The orders of promoted plans

What follows a promotion.  A worker claims the job of a leg, sends the order, and reports what it
has heard from the broker, which need not be what the broker has done: the answer of the broker may
be lost, and an order may be filled after its worker has given up.  Positions at the broker reach
the trades of the platform by an ingestion that lags behind, and a monitor settles the orders of
workers that have died by the trades that it finds.  Another monitor closes a plan, and with it
frees its slot, once the rows say that all its legs are resolved.
-/
import GuvFX.Execution.PromotionSystem

namespace GuvFX
namespace Orders

open Runs Promotion
open Consumer (JobType JobStatus)

/-! ### Records -/

inductive BrokerOrder where
  | unsent
  /-- On its way to the broker, or waiting there. -/
  | sent
  | rejected
  | filled (position : ℕ)
  deriving DecidableEq, Repr

/-- How far a worker has come with a job. -/
inductive Work where
  | idle
  /-- A claim has locked the row and has not committed yet. -/
  | claiming
  | holding
  /-- The report is accepted; its outcome is still to be saved. -/
  | reporting (ok : Bool)
  | done
  deriving DecidableEq, Repr

structure Trade where
  accountId : ℕ
  ticket : String
  symbol : String
  comment : String
  volume : ℚ
  openTime : Time
  closeTime : Option Time := none
  deriving DecidableEq, Repr

/-- A position at the broker, and the job whose order has opened it, if one has. -/
structure Position extends Trade where
  jobId : Option ℕ
  deriving DecidableEq, Repr

abbrev LegRow := ProposedOrderLeg × Option ExecutionJob

/-- How far the monitor that closes plans has come. -/
inductive Resolver where
  | idle
  | found (planId accountId : ℕ)
  /-- These legs are still to be looked at. -/
  | checking (planId accountId : ℕ) (legs : List LegRow)
  | settled (planId : ℕ)
  deriving DecidableEq, Repr

structure State where
  base : Promotion.State
  orders : ℕ → BrokerOrder
  /-- The workers of the jobs. -/
  works : ℕ → Work
  /-- The positions at the broker, by account and ticket. -/
  positions : Table Position
  /-- The trades of the platform, by account and ticket. -/
  trades : Table Trade
  resolvers : ℕ → Resolver

inductive Action where
  | promotion (a : Promotion.Action)
  /-- A claim selects the row of a pending job. -/
  | lockJob (j : ℕ)
  /-- The claim is rolled back. -/
  | unlockJob (j : ℕ)
  | claimJob (j : ℕ) (refusal : Option String)
  | sendOrder (j : ℕ)
  | fillOrder (j : ℕ) (ticket : String)
  | rejectOrder (j : ℕ)
  | openElsewhere (trade : Trade)
  | closePosition (p : ℕ)
  /-- A sync writes what it has read of a position, maybe before the position was closed. -/
  | ingest (p : ℕ) (stale : Bool)
  | beginReport (j : ℕ) (ok : Bool)
  | saveReport (j : ℕ) (errorMessage : String)
  | reconcile (j : ℕ)
  | findPlan (r k : ℕ)
  | readPlanLegs (r : ℕ)
  | checkLeg (r : ℕ)
  | freeSlot (r : ℕ)

namespace State

def withBase (s : State) (base : Promotion.State) : State := { s with base }

def withWork (s : State) (j : ℕ) (work : Work) : State :=
  { s with works := Function.update s.works j work }

def withOrder (s : State) (j : ℕ) (order : BrokerOrder) : State :=
  { s with orders := Function.update s.orders j order }

def withResolver (s : State) (r : ℕ) (resolver : Resolver) : State :=
  { s with resolvers := Function.update s.resolvers r resolver }

def saveJob (s : State) (j : ℕ) (status : JobStatus) (errorMessage : String) : State :=
  let finishedAt := if status.isTerminal then some s.base.now else none
  s.withBase (Promotion.step s.base (.workJob j status errorMessage finishedAt))

def locked (s : State) (j : ℕ) : Bool := s.works j = .claiming

end State

/-! ### Trades -/

def legTrade (trades : Table Trade) (accountId : ℕ) (comment : String) : Option Trade :=
  let rows := trades.filter fun _ trade => trade.accountId = accountId ∧ trade.comment = comment
  ((rows.insertionSort fun e e' => e'.2.openTime ≤ e.2.openTime).head?).map Prod.snd

def ingested (trades : Table Trade) (accountId : ℕ) (comment : String) : Bool :=
  (legTrade trades accountId comment).isSome

def planAccount (db : Db) (k : ℕ) : ℕ := ((db.plans.get k).map (·.accountId)).getD 0

/-- Create the trade of a position, or fill in its close; a close is never taken back. -/
def upsertTrade (trades : Table Trade) (p : ℕ) (seen : Trade) : Table Trade :=
  match trades.get p with
  | none => trades.insert p seen
  | some _ => trades.modify p fun row => { row with closeTime := seen.closeTime.or row.closeTime }

/-! ### The worker -/

def positionOf (job : ExecutionJob) (j : ℕ) (ticket : String) (now : Time) : Position where
  accountId := job.accountId
  ticket := ticket
  symbol := job.payload.symbol
  comment := job.payload.comment
  volume := job.payload.lots
  openTime := now
  jobId := some j

def onJob (s : State) (j : ℕ) (f : ExecutionJob → State) : State :=
  match s.base.db.jobs.get j with
  | none => s
  | some job => f job

def lockJob (s : State) (j : ℕ) : State :=
  onJob s j fun job =>
    if job.status = .pending ∧ s.works j = .idle then s.withWork j .claiming else s

def unlockJob (s : State) (j : ℕ) : State :=
  if s.works j = .claiming then s.withWork j .idle else s

def claimJob (s : State) (j : ℕ) (refusal : Option String) : State :=
  onJob s j fun _ =>
    if s.works j = .claiming then
      match refusal with
      | none => (s.saveJob j .running "").withWork j .holding
      | some reason => (s.saveJob j .failed reason).withWork j .done
    else s

/-- Real orders are sent once; the others are suppressed. -/
def sendOrder (s : State) (j : ℕ) : State :=
  onJob s j fun job =>
    if job.jobType = .placeOrder ∧ s.works j = .holding ∧ s.orders j = .unsent then
      s.withOrder j .sent
    else s

def fillOrder (s : State) (j : ℕ) (ticket : String) : State :=
  onJob s j fun job =>
    if s.orders j = .sent then
      { s.withOrder j (.filled s.positions.fresh) with
        positions := s.positions.insert s.positions.fresh (positionOf job j ticket s.base.now) }
    else s

def rejectOrder (s : State) (j : ℕ) : State :=
  if s.orders j = .sent then s.withOrder j .rejected else s

def beginReport (s : State) (j : ℕ) (ok : Bool) : State :=
  onJob s j fun job =>
    if job.status = .running ∧ s.works j = .holding then s.withWork j (.reporting ok) else s

/-- The outcome is saved, whatever the job has become. -/
def saveReport (s : State) (j : ℕ) (errorMessage : String) : State :=
  onJob s j fun _ =>
    match s.works j with
    | .reporting ok =>
      (s.saveJob j (if ok then .success else .failed) errorMessage).withWork j .done
    | _ => s

/-- An order whose worker seems to have died has succeeded if there is a trade for it. -/
def reconcile (s : State) (j : ℕ) : State :=
  onJob s j fun job =>
    if job.status = .running ∧ job.jobType = .placeOrder ∧
        ingested s.trades job.accountId (legComment job.payload.planId job.payload.legIndex) then
      s.saveJob j .success ""
    else s

/-! ### The broker -/

def openElsewhere (s : State) (trade : Trade) : State :=
  { s with
    positions := s.positions.insert s.positions.fresh
      { trade with closeTime := none, jobId := none } }

def closePosition (s : State) (p : ℕ) : State :=
  { s with
    positions := s.positions.modify p fun row =>
      { row with closeTime := row.closeTime.or (some s.base.now) } }

/-- What a sync reads of a position; it may read it before the position is closed. -/
def seenTrade (position : Position) (stale : Bool) : Trade :=
  { position.toTrade with closeTime := if stale then none else position.closeTime }

def ingest (s : State) (p : ℕ) (stale : Bool) : State :=
  match s.positions.get p with
  | none => s
  | some position => { s with trades := upsertTrade s.trades p (seenTrade position stale) }

/-! ### The monitor that closes plans -/

def planLegs (db : Db) (k : ℕ) : List LegRow :=
  (legsOf db k).map fun leg => (leg.2, leg.2.executionJobId.bind db.jobs.get)

/-- Is a leg resolved?  Its order has failed, or it has succeeded and its trade is closed. -/
def legSettled (trades : Table Trade) (accountId planId : ℕ) (leg : LegRow) : Bool :=
  match leg.2 with
  | none => false
  | some job =>
    match job.status with
    | .pending | .running => false
    | .failed => true
    | .success => (legTrade trades accountId (legComment planId leg.1.legIndex)).any
        (·.closeTime.isSome)

def findPlan (s : State) (r k : ℕ) : State :=
  match s.base.db.plans.get k with
  | none => s
  | some plan =>
    if plan.status = .promoted then s.withResolver r (.found k plan.accountId) else s

def readPlanLegs (s : State) (r k accountId : ℕ) : State :=
  let legs := planLegs s.base.db k
  s.withResolver r (if legs = [] then .idle else .checking k accountId legs)

/-- Look at the next leg; one that is not resolved keeps the plan as it is. -/
def checkLeg (trades : Table Trade) (k accountId : ℕ) : List LegRow → Resolver
  | [] => .settled k
  | leg :: rest =>
    if legSettled trades accountId k leg then .checking k accountId rest else .idle

/-! ### The system -/

/-- A step of the promotions as it happens here: the jobs and the plans have other writers, a command
sees the trades, and its cancellation skips the rows that a claim or somebody else has locked. -/
def seenHere (s : State) : Promotion.Action → Option Promotion.Action
  | .workJob .. | .closePlan _ => none
  | .command c k closeAll _ =>
    some (.command c k closeAll (ingested s.trades (planAccount s.base.db k)))
  | .cancelJobs c locked => some (.cancelJobs c fun j => s.locked j || locked j)
  | a => some a

def step (s : State) : Action → State
  | .promotion a =>
    match seenHere s a with
    | none => s
    | some a => s.withBase (Promotion.step s.base a)
  | .lockJob j => lockJob s j
  | .unlockJob j => unlockJob s j
  | .claimJob j refusal => claimJob s j refusal
  | .sendOrder j => sendOrder s j
  | .fillOrder j ticket => fillOrder s j ticket
  | .rejectOrder j => rejectOrder s j
  | .openElsewhere trade => openElsewhere s trade
  | .closePosition p => closePosition s p
  | .ingest p stale => ingest s p stale
  | .beginReport j ok => beginReport s j ok
  | .saveReport j errorMessage => saveReport s j errorMessage
  | .reconcile j => reconcile s j
  | .findPlan r k =>
    match s.resolvers r with
    | .idle => findPlan s r k
    | _ => s
  | .readPlanLegs r =>
    match s.resolvers r with
    | .found k accountId => readPlanLegs s r k accountId
    | _ => s
  | .checkLeg r =>
    match s.resolvers r with
    | .checking k accountId legs => s.withResolver r (checkLeg s.trades k accountId legs)
    | _ => s
  | .freeSlot r =>
    match s.resolvers r with
    | .settled k =>
      (s.withBase (Promotion.step s.base (.closePlan k))).withResolver r .idle
    | _ => s

/-- Nobody has planned anything yet, and there are no positions. -/
def start (env : Env) (now : Time) : State where
  base := Promotion.start env now
  orders := fun _ => .unsent
  works := fun _ => .idle
  positions := .empty
  trades := .empty
  resolvers := fun _ => .idle

end Orders
end GuvFX
