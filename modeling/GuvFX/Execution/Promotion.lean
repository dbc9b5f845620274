/-
# The promotion of signal plans

An approved signal becomes a plan with a few legs, and no order.  A promotion validates the plan
against the gates of the moment and creates one order job for each leg, which marks the plan as
promoted.  Three other writers void a plan that is still planned: the router after a rejection, the
cancellation by the provider of the signal, and the sweep over plans that nobody promoted.
-/
import Mathlib.Algebra.Order.Field.Rat
import Mathlib.Data.List.Sort
import GuvFX.TradeCopier.Consumer

namespace GuvFX
namespace Promotion

open Checks
open Consumer (JobType JobStatus)

/-! ### Records -/

inductive PlanStatus where
  | planned
  | held
  | voided
  | superseded
  | promoted
  | closed
  deriving DecidableEq, Repr

inductive LegStatus where
  | planned
  | held
  | voided
  | promoted
  deriving DecidableEq, Repr

structure SignalExecutionPlan where
  accountId : ℕ
  source : String
  symbol : String
  direction : String
  stopLoss : String
  isDemo : Bool
  signalTimestamp : Option Time
  createdAt : Time
  correlationId : String
  status : PlanStatus
  holdReason : String := ""
  deriving DecidableEq, Repr

structure ProposedOrderLeg where
  planId : ℕ
  legIndex : ℕ
  takeProfit : String
  lotSize : ℚ
  status : LegStatus := .planned
  executionJobId : Option ℕ := none
  deriving DecidableEq, Repr

/-- Suppressed orders, or real ones on a demo account. -/
inductive ExecutionMode where
  | shadow
  | demo
  deriving DecidableEq, Repr

structure OrderPayload where
  symbol : String
  providerSymbol : String
  side : String
  lots : ℚ
  slPrice : String
  tpPrice : String
  isDemo : Bool
  executionMode : ExecutionMode
  comment : String
  planId : ℕ
  legIndex : ℕ
  signalSource : String
  maxLot : ℚ
  correlationId : String
  signalTimestamp : Option Time
  windowsUsername : Option String
  magic : Option ℤ
  deriving DecidableEq, Repr

structure ExecutionJob where
  jobType : JobType
  accountId : ℕ
  terminalNodeId : Option ℕ
  status : JobStatus
  assignmentId : Option ℕ
  strategyId : Option ℕ
  payload : OrderPayload
  errorMessage : String := ""
  finishedAt : Option Time := none
  deriving DecidableEq, Repr

/-- The rows of the promotion. -/
structure Db where
  plans : Table SignalExecutionPlan
  legs : Table ProposedOrderLeg
  jobs : Table ExecutionJob

/-! ### What a promotion reads besides -/

structure SymbolResolution where
  accepted : Bool
  reason : String
  brokerSymbol : Option String
  deriving DecidableEq, Repr

structure SignalSourceConfig where
  autoDemoExecutionEnabled : Bool
  maxLotPerLeg : ℚ
  maxTotalLot : ℚ
  deriving DecidableEq, Repr

structure StrategyAssignment where
  id : ℕ
  strategyId : ℕ
  magicNumber : Option ℤ
  deriving DecidableEq, Repr

structure Env where
  signalExecutionMode : ExecutionMode
  /-- Why no order job may be created now, if so. -/
  killReason : Option String
  sourceConfig : String → Option SignalSourceConfig
  accounts : ℕ → TradingAccount
  liveExecutionPermitted : ℕ → Bool
  /-- Why the gate of the broker validation refuses an account, if so. -/
  executionGateRefusal : ℕ → Option String
  isBrokerPaused : ℕ → Bool
  canAccountTradeSymbol : ℕ → String → SymbolResolution
  /-- The first risk control that blocks. -/
  promotionRisk : SignalExecutionPlan → List ProposedOrderLeg → Option String
  symbolConflictPolicyEnabled : Bool
  symbolConflict : SignalExecutionPlan → Option String
  dualWriteEnabled : Bool
  magicSendEnabled : Bool
  planAssignment : SignalExecutionPlan → Option StrategyAssignment
  windowsUsername : ℕ → Option String

def signalMaxAgeSeconds : Time := 120

def signalMaxLotSize : ℚ := 2 / 100

def maxTotalLotPerSignal : ℚ := 6 / 100

/-- The ceilings of a leg and of a signal; a source without configuration has the lowest. -/
def sizingCaps (env : Env) (source : String) : ℚ × ℚ :=
  match env.sourceConfig source with
  | none => (signalMaxLotSize, maxTotalLotPerSignal)
  | some cfg => (cfg.maxLotPerLeg, cfg.maxTotalLot)

/-! ### Validation -/

def legChecks (cap : ℚ) (leg : ProposedOrderLeg) : List (Bool × String) :=
  [(leg.takeProfit ≠ "", "missing_take_profit"),
    (0 < leg.lotSize ∧ leg.lotSize ≤ cap, "lot_out_of_range")]

/-- What a promotion asks of a plan by itself, in the order of the source. -/
def planChecks (env : Env) (now : Time) (expectedMode : ExecutionMode)
    (plan : SignalExecutionPlan) (legs : List ProposedOrderLeg) : List (Bool × String) :=
  let acct := env.accounts plan.accountId
  let symbol := env.canAccountTradeSymbol plan.accountId plan.symbol
  [(plan.status = .planned, "plan_not_planned"),
    (env.signalExecutionMode = expectedMode, "execution_mode_mismatch"),
    (env.killReason.isNone, env.killReason.getD ""),
    ((env.sourceConfig plan.source).any (·.autoDemoExecutionEnabled), "source_not_enabled"),
    (isDemoEnvironment acct || isLiveEnvironment acct && env.liveExecutionPermitted plan.accountId,
      "account_not_demo"),
    ((env.executionGateRefusal plan.accountId).isNone,
      "broker_gate_" ++ (env.executionGateRefusal plan.accountId).getD ""),
    (!env.isBrokerPaused plan.accountId, "broker_gate_paused"),
    (symbol.accepted, symbol.reason),
    (plan.stopLoss ≠ "", "missing_stop_loss"),
    (!legs.isEmpty, "no_legs"),
    (plan.signalTimestamp.isSome, "no_signal_timestamp"),
    (plan.signalTimestamp.all fun t => now - t ≤ signalMaxAgeSeconds, "stale_signal")]

/-- What a promotion asks of a plan with its legs, in the order of the source. -/
def validateChecks (env : Env) (now : Time) (expectedMode : ExecutionMode)
    (plan : SignalExecutionPlan) (legs : List ProposedOrderLeg) : List (Bool × String) :=
  let caps := sizingCaps env plan.source
  let last : List (Bool × String) :=
    [((legs.map (·.lotSize)).sum ≤ caps.2, "total_lot_exceeds_cap"),
      ((env.promotionRisk plan legs).isNone, (env.promotionRisk plan legs).getD ""),
      (!env.symbolConflictPolicyEnabled || (env.symbolConflict plan).isNone,
        (env.symbolConflict plan).getD "")]
  planChecks env now expectedMode plan legs ++ legs.flatMap (legChecks caps.1) ++ last

def validate (env : Env) (now : Time) (expectedMode : ExecutionMode) (plan : SignalExecutionPlan)
    (legs : List ProposedOrderLeg) : Option String :=
  firstRefusal (validateChecks env now expectedMode plan legs)

/-! ### Promotion -/

/-- A promotion under way: the plan as it was read, and what was read later. -/
structure Session where
  planId : ℕ
  plan : SignalExecutionPlan
  mode : ExecutionMode
  /-- Is it the router that promotes? -/
  auto : Bool
  brokerSymbol : Option String := none
  legs : List (ℕ × ProposedOrderLeg) := []
  owner : Option StrategyAssignment := none
  magic : Option ℤ := none
  deriving DecidableEq, Repr

def jobTypeFor : ExecutionMode → JobType
  | .shadow => .placeOrderShadow
  | .demo => .placeOrder

def legComment (planId legIndex : ℕ) : String := s!"WAY{planId}L{legIndex}"

def orderPayload (env : Env) (session : Session) (leg : ProposedOrderLeg) : OrderPayload where
  symbol := (session.brokerSymbol.filter (· ≠ "")).getD session.plan.symbol
  providerSymbol := session.plan.symbol
  side := session.plan.direction
  lots := leg.lotSize
  slPrice := session.plan.stopLoss
  tpPrice := leg.takeProfit
  isDemo := session.plan.isDemo
  executionMode := session.mode
  comment := legComment session.planId leg.legIndex
  planId := session.planId
  legIndex := leg.legIndex
  signalSource := session.plan.source
  maxLot := (sizingCaps env session.plan.source).1
  correlationId := session.plan.correlationId
  signalTimestamp := session.plan.signalTimestamp
  windowsUsername := env.windowsUsername session.plan.accountId
  magic := session.magic

def orderJob (env : Env) (session : Session) (leg : ProposedOrderLeg) : ExecutionJob where
  jobType := jobTypeFor session.mode
  accountId := session.plan.accountId
  terminalNodeId := (env.accounts session.plan.accountId).terminalNodeId
  status := .pending
  assignmentId := session.owner.map (·.id)
  strategyId := session.owner.map (·.strategyId)
  payload := orderPayload env session leg

def legsOf (db : Db) (k : ℕ) : List (ℕ × ProposedOrderLeg) :=
  (db.legs.filter fun _ leg => leg.planId = k).insertionSort
    fun e e' => e.2.legIndex ≤ e'.2.legIndex

def readLegs (env : Env) (db : Db) (session : Session) : Session :=
  let owner := if env.dualWriteEnabled then env.planAssignment session.plan else none
  { session with
    legs := legsOf db session.planId
    owner
    magic :=
      if env.magicSendEnabled ∧ session.mode = .demo then owner.bind (·.magicNumber) else none }

/-- Create the job of a leg, unless the leg that was read has one. -/
def promoteLeg (env : Env) (session : Session) (db : Db) (leg : ℕ × ProposedOrderLeg) : Db :=
  match leg.2.executionJobId with
  | some _ => db
  | none =>
    { db with
      jobs := db.jobs.insert db.jobs.fresh (orderJob env session leg.2)
      legs := db.legs.modify leg.1 fun row =>
        { row with executionJobId := some db.jobs.fresh, status := .promoted } }

def saveStatus (db : Db) (k : ℕ) (status : PlanStatus) : Db :=
  { db with plans := db.plans.modify k fun row => { row with status } }

/-- The transaction of a promotion. -/
def promote (env : Env) (session : Session) (db : Db) : Db :=
  saveStatus (session.legs.foldl (promoteLeg env session) db) session.planId .promoted

/-! ### The other writers -/

def compareAndSet (db : Db) (k : ℕ) (expected : PlanStatus) (f : SignalExecutionPlan →
    SignalExecutionPlan) : Db :=
  { db with plans := db.plans.modify k fun row => if row.status = expected then f row else row }

def voidRejectedPlan (db : Db) (k : ℕ) (code : String) : Db :=
  compareAndSet db k .planned fun row =>
    { row with status := .voided, holdReason := Text.clip 64 ("promotion_rejected:" ++ code) }

def hasUnresolvedFills (db : Db) (k : ℕ) (ingested : String → Bool) : Bool :=
  (legsOf db k).any fun leg =>
    match leg.2.executionJobId.bind db.jobs.get with
    | none => false
    | some job =>
      job.status = .running ∨ job.status = .success ∧ ingested (legComment k leg.2.legIndex) = false

def cancelPlan (db : Db) (k : ℕ) : Db :=
  compareAndSet db k .planned fun row => { row with status := .voided }

def cancelPendingOrderJobs (db : Db) (k : ℕ) (locked : ℕ → Bool) (now : Time) : Db :=
  let ids := (legsOf db k).filterMap fun leg => leg.2.executionJobId
  let cancel := fun jobs j => jobs.modify j fun (job : ExecutionJob) =>
    if locked j = false ∧ job.status = .pending ∧ job.jobType ∈ [.placeOrder, .placeTestOrder] then
      { job with
        status := .failed, errorMessage := "cancelled by provider command", finishedAt := some now }
    else job
  { db with jobs := ids.foldl cancel db.jobs }

/-- Which plans a sweep looks at. -/
structure ReclaimFilter where
  accountId : Option ℕ := none
  symbol : String := ""
  source : String := ""
  deriving DecidableEq, Repr

/-- The plans that nobody promoted in time, by their keys; the threshold must exceed the age at
which a signal is stale. -/
def orphanedPlannedPlans (db : Db) (now threshold : Time) (filter : ReclaimFilter) (limit : ℕ) :
    Option (List ℕ) :=
  if threshold ≤ signalMaxAgeSeconds then none
  else
    let plans := db.plans.filter fun _ plan =>
      plan.status = .planned ∧ plan.createdAt < now - threshold ∧
        (filter.accountId.all (· = plan.accountId)) ∧
        (filter.symbol = "" ∨ plan.symbol = filter.symbol.toUpper) ∧
        (filter.source = "" ∨ plan.source = filter.source)
    some (((plans.map Prod.fst).insertionSort (· ≤ ·)).take limit)

def reclaimPlan (db : Db) (k : ℕ) : Db :=
  compareAndSet db k .planned fun row =>
    { row with status := .voided, holdReason := "orphaned_planned_reclaim" }

/-- A plan whose positions are all resolved is closed. -/
def closePlan (db : Db) (k : ℕ) : Db :=
  compareAndSet db k .promoted fun row => { row with status := .closed }

/-- How the planning of a signal ends: legs with a target and a size each, or a reason. -/
inductive Planning where
  | planned (targets : List (String × ℚ))
  | held (reason : String)
  | voided (reason : String)
  deriving DecidableEq, Repr

def Planning.status : Planning → PlanStatus
  | .planned _ => .planned
  | .held _ => .held
  | .voided _ => .voided

def Planning.reason : Planning → String
  | .planned _ => ""
  | .held reason | .voided reason => reason

def Planning.targets : Planning → List (String × ℚ)
  | .planned targets => targets
  | .held _ | .voided _ => []

def createLeg (k : ℕ) (legs : Table ProposedOrderLeg) (target : (String × ℚ) × ℕ) :
    Table ProposedOrderLeg :=
  legs.insert legs.fresh
    { planId := k, legIndex := target.2, takeProfit := target.1.1, lotSize := target.1.2 }

/-- A new plan with its legs, which are numbered from one. -/
def createPlan (db : Db) (k : ℕ) (plan : SignalExecutionPlan) (planning : Planning) : Db :=
  if k ∈ db.plans.keys then db
  else
    { db with
      plans := db.plans.insert k
        { plan with status := planning.status, holdReason := planning.reason }
      legs := (planning.targets.zipIdx 1).foldl (createLeg k) db.legs }

end Promotion
end GuvFX
