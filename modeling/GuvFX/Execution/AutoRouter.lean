/-
# The routing of signals to accounts

A signal that is approved by the system goes to the assignments of strategies that are bound to its source,
or, when none is, to the one assignment that is bound to no source.  With the fan-out it goes to all the
bound ones.  For each destination a plan is made from the signal, with a few legs, and promoted to order
jobs; whatever goes wrong for one destination is recorded, and the next one is served.

The plan of a signal on an account is known by the approval of the signal and the account, and the comment
of a trade is the leg that it names.
-/
import GuvFX.Execution.RiskControls
import GuvFX.Lib.Views

namespace GuvFX
namespace AutoRouter

open Checks
open Consumer (JobType JobStatus)
open Promotion (PlanStatus LegStatus ExecutionMode SymbolResolution signalMaxAgeSeconds)

/-! ### Records -/

inductive Stage where
  | test
  | live
  deriving DecidableEq, Repr

inductive AssignmentMode where
  | manual
  | autoShadow
  | autoDemo
  | autoLive
  deriving DecidableEq, Repr

structure StrategyAssignment where
  accountId : ℕ
  isActive : Bool
  stage : Stage
  executionMode : AssignmentMode
  /-- The source that the assignment is bound to, if it is not empty. -/
  signalSource : String := ""
  /-- The size of a leg that the customer has set. -/
  lotPerLeg : Option ℚ := none
  deriving DecidableEq, Repr

structure SignalSourceConfig extends Promotion.SignalSourceConfig where
  source : String
  totalLotTarget : ℚ
  dailyGroupCap : ℕ
  deriving DecidableEq, Repr

structure ProposedOrderLeg where
  legIndex : ℕ
  takeProfit : String
  lotSize : ℚ
  status : LegStatus := .planned
  deriving DecidableEq, Repr

structure SignalExecutionPlan extends Promotion.SignalExecutionPlan where
  approvalId : ℕ
  legs : List ProposedOrderLeg := []
  deriving DecidableEq, Repr

structure ExecutionJob where
  accountId : ℕ
  jobType : JobType
  status : JobStatus
  /-- The approval and the index of the leg that the job is for, if it is for one. -/
  leg : Option (ℕ × ℕ) := none
  deriving DecidableEq, Repr

structure Trade where
  accountId : ℕ
  symbol : String
  volume : ℚ
  closeTime : Option Time := none
  profit : ℚ := 0
  /-- The leg that the comment names, by the approval and the index. -/
  leg : Option (ℕ × ℕ) := none
  deriving DecidableEq, Repr

structure Db where
  plans : List SignalExecutionPlan := []
  jobs : List ExecutionJob := []
  trades : List Trade := []
  deriving DecidableEq, Repr

def Db.of (accountId : ℕ) (db : Db) : Db where
  plans := db.plans.filter (·.accountId = accountId)
  jobs := db.jobs.filter (·.accountId = accountId)
  trades := db.trades.filter (·.accountId = accountId)

inductive ApprovalStatus where
  | pendingApproval
  | approved
  | other
  deriving DecidableEq, Repr

structure PendingSignalApproval where
  id : ℕ
  source : String
  status : ApprovalStatus
  sourceEdited : Bool := false
  symbol : String
  direction : String
  stopLoss : String
  takeProfits : List String
  /-- The time in the message, or else that of the approval. -/
  timestamp : Time
  correlationId : String := ""
  deriving DecidableEq, Repr

/-! ### What the router reads besides -/

structure Settings where
  now : Time
  autoExecutionEnabled : Bool
  /-- Why no order job may be created now, if so. -/
  killReason : Option String
  /-- The global mode, if it is one in which the router acts. -/
  signalExecutionMode : Option ExecutionMode
  multiAccountRoutingEnabled : Bool
  hostedLiveExecutionEnabled : Bool
  symbolConflictPolicyEnabled : Bool
  riskRequireTerminalNode : Bool
  nodeActive : ℕ → Bool
  providerArmed : Bool
  confidenceOk : Bool
  systemActor : Bool
  /-- Does the approval by the actor succeed? -/
  approves : Bool
  sourceConfigs : List SignalSourceConfig
  caps : RiskControls.RiskCaps
  planMaxConcurrentGroups : ℕ

structure Account where
  row : TradingAccount
  liveExecutionAuthorized : Bool
  canTradeSymbol : String → SymbolResolution
  executionGateRefusal : Option String
  isBrokerPaused : Bool
  orderCheck : Promotion.SignalExecutionPlan → ℚ → Option RiskControls.OrderCheck
  /-- The guard of the symbols of other strategies, from the rows of the account. -/
  symbolConflict : Db → Promotion.SignalExecutionPlan → Option String
  /-- Does the evaluation of the risk end in an exception? -/
  riskRaises : Bool

/-- What goes wrong for a destination without a gate that says so. -/
inductive Fault where
  | none
  /-- The planning raises; it leaves nothing behind. -/
  | planning
  | promotion
  /-- The jobs have been created by somebody else. -/
  | duplicate
  deriving DecidableEq, Repr

structure World extends Settings where
  assignments : Table StrategyAssignment
  accounts : ℕ → Account
  faults : ℕ → Fault

abbrev Target := ℕ × StrategyAssignment

namespace World

variable (w : World)

def sourceConfig (source : String) : Option SignalSourceConfig :=
  w.sourceConfigs.find? (·.source = source)

def liveExecutionPermitted (accountId : ℕ) : Bool :=
  w.hostedLiveExecutionEnabled && (w.accounts accountId).liveExecutionAuthorized

/-! ### The resolution of destinations -/

/-- `_account_env_admitted` -/
def accountEnvAdmitted (accountId : ℕ) : Bool :=
  let row := (w.accounts accountId).row
  isDemoEnvironment row || isLiveEnvironment row && w.liveExecutionPermitted accountId

end World

def assignmentModeFor : ExecutionMode → AssignmentMode
  | .shadow => .autoShadow
  | .demo => .autoDemo

namespace World

variable (w : World)

/-- `_routable_base` -/
def routableBase (mode : ExecutionMode) (a : StrategyAssignment) : Bool :=
  a.executionMode = assignmentModeFor mode ∧ a.stage = .live ∧ (w.accounts a.accountId).row.isActive ∧
    (w.hostedLiveExecutionEnabled ∨ (w.accounts a.accountId).row.isDemo)

def candidates (mode : ExecutionMode) (source : String) : List Target :=
  w.assignments.filter fun _ a => w.routableBase mode a ∧ a.signalSource = source ∧ a.isActive

/-- The candidates whose accounts the order path admits. -/
def admitted (qs : List Target) : List Target :=
  if w.hostedLiveExecutionEnabled then qs.filter fun a => w.accountEnvAdmitted a.2.accountId else qs

/-- `_unique_admitted` -/
def uniqueAdmitted (qs : List Target) : Option Target :=
  match w.admitted qs with
  | [a] => some a
  | _ => none

def claimed (source : String) : Bool :=
  source ≠ "" ∧ (w.assignments.filter fun _ a => a.signalSource = source) ≠ []

/-- `_resolve_target` -/
def resolveTarget (mode : ExecutionMode) (source : String) : Option Target :=
  if w.claimed source then w.uniqueAdmitted (w.candidates mode source)
  else if source ≠ "" ∧ w.multiAccountRoutingEnabled ∧ (w.sourceConfig source).isSome then none
  else if source ≠ "" ∧ 1 < (w.sourceConfigs.filter (·.autoDemoExecutionEnabled)).length then none
  else w.uniqueAdmitted (w.candidates mode "")

/-- `_resolve_targets` -/
def resolveTargets (mode : ExecutionMode) (source : String) : List Target :=
  if w.claimed source then w.admitted (w.candidates mode source)
  else (w.resolveTarget mode source).toList

def targets (mode : ExecutionMode) (source : String) : List Target :=
  if w.multiAccountRoutingEnabled then w.resolveTargets mode source
  else (w.resolveTarget mode source).toList

/-- The gates of `effective_mode` before that of the destinations. -/
def modeGates (approval : PendingSignalApproval) : List (Bool × String) :=
  [(!approval.sourceEdited, "edited_signal"),
    (w.autoExecutionEnabled, "auto_execution_disabled"),
    (w.killReason.isNone, "kill_switch"),
    (w.signalExecutionMode.isSome, "execution_mode_unsupported"),
    (w.providerArmed, "provider_not_armed"),
    ((w.sourceConfig approval.source).any (·.autoDemoExecutionEnabled), "source_not_enabled"),
    (w.confidenceOk, "parser_confidence_below_medium")]

/-- The tier in which a signal is routed, or why it is left to a human. -/
def effectiveMode (approval : PendingSignalApproval) : Except String ExecutionMode :=
  match firstRefusal (w.modeGates approval), w.signalExecutionMode with
  | some reason, _ => .error reason
  | none, none => .error "execution_mode_unsupported"
  | none, some mode =>
    if w.targets mode approval.source = [] then
      .error (if w.multiAccountRoutingEnabled then "no_routable_assignment"
        else "no_unique_auto_assignment")
    else .ok mode

end World

/-! ### Sizes -/

def lotStep : ℚ := 1 / 100

def maxPlanLegs : ℕ := 3

/-- The sizes of `n` legs: equal parts in steps of the broker, and what is left over for the first ones. -/
def splitVolume (total : ℚ) (n : ℕ) (maxPerLeg maxTotal : ℚ) : Option (List ℚ) :=
  if n < 1 ∨ maxPlanLegs < n ∨ total ≤ 0 then none
  else
    let effective := min total (min (n * maxPerLeg) maxTotal)
    let units := ⌊effective / lotStep⌋.toNat
    if units < n then none
    else
      let legs : List ℚ := (List.range n).map fun i =>
        ((units / n + if i < units % n then 1 else 0 : ℕ) : ℚ) * lotStep
      if legs.any (maxPerLeg < ·) ∨ maxTotal < legs.sum then none else some legs

/-- The size of all legs that is asked for, and the ceiling of one. -/
def legSizing (cfg : SignalSourceConfig) (a : StrategyAssignment) (n : ℕ) : ℚ × ℚ :=
  match a.lotPerLeg with
  | some lot => (min (min lot cfg.maxLotPerLeg * n) cfg.maxTotalLot, min lot cfg.maxLotPerLeg)
  | none => (cfg.totalLotTarget, cfg.maxLotPerLeg)

/-! ### Planning -/

def countActive (db : Db) (accountId : ℕ) (symbol : String) : ℕ :=
  ((db.of accountId).plans.filter fun plan => plan.symbol = symbol ∧ plan.status = .planned).length

def countToday (w : World) (db : Db) (accountId : ℕ) (symbol source : String) : ℕ :=
  ((db.of accountId).plans.filter fun plan => plan.symbol = symbol ∧ plan.source = source ∧
    plan.status ∈ [.planned, .promoted, .closed] ∧ RiskControls.startOfDay w.now ≤ plan.createdAt).length

/-- The gates of `plan_demo_execution`, in the order of the source. -/
def planGates (w : World) (db : Db) (approval : PendingSignalApproval) (accountId : ℕ) :
    List (Bool × String) :=
  let symbol := approval.symbol.toUpper
  let resolution := (w.accounts accountId).canTradeSymbol symbol
  let cap := ((w.sourceConfig approval.source).map (·.dailyGroupCap)).getD 0
  [(approval.status = .approved, "approval_not_approved"),
    (w.killReason.isNone, w.killReason.getD ""),
    ((w.sourceConfig approval.source).any (·.autoDemoExecutionEnabled), "source_not_enabled"),
    (w.accountEnvAdmitted accountId, "account_not_demo"),
    (symbol ≠ "" ∧ approval.direction.toUpper ∈ ["BUY", "SELL"], "not_tradeable"),
    (resolution.accepted, resolution.reason),
    (cap = 0 ∨ countToday w db accountId symbol approval.source < cap, "daily_limit_exceeded"),
    (countActive db accountId symbol < w.planMaxConcurrentGroups, "concurrent_limit_exceeded")]

def newPlan (w : World) (approval : PendingSignalApproval) (telegramDate : Option Time)
    (a : StrategyAssignment) : SignalExecutionPlan :=
  let timestamp := telegramDate.getD approval.timestamp
  let plan (status : PlanStatus) (reason : String) (legs : List ProposedOrderLeg) :
      SignalExecutionPlan :=
    { accountId := a.accountId
      source := approval.source
      symbol := approval.symbol.toUpper
      direction := approval.direction.toUpper
      stopLoss := approval.stopLoss
      isDemo := (w.accounts a.accountId).row.isDemo
      signalTimestamp := some timestamp
      createdAt := w.now
      correlationId := approval.correlationId
      status := status
      holdReason := reason
      approvalId := approval.id
      legs := legs }
  let tps := approval.takeProfits.filter (· ≠ "")
  let n := min tps.length maxPlanLegs
  if approval.stopLoss = "" then plan .held "missing_stop_loss" []
  else if tps = [] then plan .held "missing_take_profit" []
  else if signalMaxAgeSeconds < w.now - timestamp then plan .voided "stale_signal" []
  else
    let lots := (w.sourceConfig approval.source).bind fun cfg =>
      let sizing := legSizing cfg a n
      splitVolume sizing.1 n sizing.2 cfg.maxTotalLot
    match lots with
    | none => plan .held "volume_split_invalid" []
    | some lots =>
      plan .planned "" (((tps.take n).zip lots).zipIdx.map fun leg =>
        { legIndex := leg.2 + 1, takeProfit := leg.1.1, lotSize := leg.1.2 })

def Db.planOf (db : Db) (approvalId accountId : ℕ) : Option SignalExecutionPlan :=
  (db.of accountId).plans.find? (·.approvalId = approvalId)

/-- `plan_demo_execution` -/
def planDemoExecution (w : World) (approval : PendingSignalApproval) (telegramDate : Option Time)
    (a : StrategyAssignment) (db : Db) : Except String (Db × SignalExecutionPlan) :=
  match db.planOf approval.id a.accountId with
  | some plan => .ok (db, plan)
  | none =>
    match firstRefusal (planGates w db approval a.accountId) with
    | some code => .error code
    | none =>
      let plan := newPlan w approval telegramDate a
      .ok ({ db with plans := db.plans ++ [plan] }, plan)

/-! ### Risk controls -/

def isOpenTrade (symbol : String) (trade : Trade) : Bool :=
  trade.closeTime = none ∧ (symbol = "" ∨ trade.symbol = symbol)

/-- The open trades of an account, and the legs of promoted plans in flight but for those of one plan. -/
def exposureBut (rows : Db) (symbol : String) (approvalId : ℕ) : ℚ :=
  let trades := rows.trades.filter (isOpenTrade symbol)
  let plans := rows.plans.filter fun plan =>
    plan.status = .promoted ∧ (symbol = "" ∨ plan.symbol = symbol) ∧ plan.approvalId ≠ approvalId
  let inFlight (plan : SignalExecutionPlan) : List ProposedOrderLeg := plan.legs.filter fun leg =>
    trades.all fun trade => trade.leg ≠ some (plan.approvalId, leg.legIndex)
  (trades.map (·.volume)).sum + ((plans.flatMap inFlight).map (·.lotSize)).sum

def openPositionsCount (rows : Db) : ℕ :=
  (rows.trades.filter (isOpenTrade "")).length +
    (rows.jobs.filter fun job => job.status ∈ [.pending, .running] ∧
      job.jobType ∈ [.openTrade, .placeOrder, .placeOrderShadow]).length

def todayRealizedPnl (w : World) (rows : Db) : ℚ :=
  ((rows.trades.filter fun trade =>
    trade.closeTime.any (RiskControls.startOfDay w.now ≤ ·)).map (·.profit)).sum

def otherActivePlans (rows : Db) (symbol : String) (approvalId : ℕ) : ℕ :=
  (rows.plans.filter fun plan => plan.symbol = symbol ∧ plan.status ∈ [.planned, .promoted] ∧
    plan.approvalId ≠ approvalId).length

def riskEnv (w : World) (accountId : ℕ) : RiskControls.RiskEnv where
  requireTerminalNode := w.riskRequireTerminalNode || w.multiAccountRoutingEnabled
  nodeActive := w.nodeActive
  orderCheck := (w.accounts accountId).orderCheck
  profit := fun _ => 0
  raises := fun _ => (w.accounts accountId).riskRaises

/-- The controls, in the order of the source. -/
def riskChecks (w : World) (rows : Db) (approvalId : ℕ) (plan : Promotion.SignalExecutionPlan)
    (legs : List Promotion.ProposedOrderLeg) : List (Bool × String) :=
  let risk := riskEnv w plan.accountId
  let newTotal := (legs.map (·.lotSize)).sum
  let node := RiskControls.nodeAssignmentBlockReason risk (w.accounts plan.accountId).row
  let margin := RiskControls.marginGuardReason w.caps risk plan legs newTotal
  [(node.isNone, node.getD ""),
    (exposureBut rows "" approvalId + newTotal ≤ w.caps.maxAccountExposureLot,
      "account_exposure_exceeded"),
    (exposureBut rows plan.symbol approvalId + newTotal ≤ w.caps.maxSymbolExposureLot,
      "symbol_exposure_exceeded"),
    (openPositionsCount rows < w.caps.maxOpenPositionsPerAccount, "max_open_positions_reached"),
    (-w.caps.maxDailyDrawdownAbs < todayRealizedPnl w rows, "daily_drawdown_hit"),
    (margin.isNone, margin.getD ""),
    (otherActivePlans rows plan.symbol approvalId < w.caps.planMaxConcurrentGroups,
      "concurrent_position_limit")]

def evaluatePromotionRisk (w : World) (rows : Db) (approvalId : ℕ) (plan : Promotion.SignalExecutionPlan)
    (legs : List Promotion.ProposedOrderLeg) : Option String :=
  if (w.accounts plan.accountId).riskRaises then some "risk_state_indeterminate"
  else firstRefusal (riskChecks w rows approvalId plan legs)

/-! ### Promotion -/

def promotionEnv (w : World) (mode : ExecutionMode) (db : Db) (plan : SignalExecutionPlan) :
    Promotion.Env where
  signalExecutionMode := w.signalExecutionMode.getD mode
  killReason := w.killReason
  sourceConfig := fun source => (w.sourceConfig source).map (·.toSignalSourceConfig)
  accounts := fun accountId => (w.accounts accountId).row
  liveExecutionPermitted := w.liveExecutionPermitted
  executionGateRefusal := fun accountId => (w.accounts accountId).executionGateRefusal
  isBrokerPaused := fun accountId => (w.accounts accountId).isBrokerPaused
  canAccountTradeSymbol := fun accountId => (w.accounts accountId).canTradeSymbol
  promotionRisk := evaluatePromotionRisk w (db.of plan.accountId) plan.approvalId
  symbolConflictPolicyEnabled := w.symbolConflictPolicyEnabled
  symbolConflict := (w.accounts plan.accountId).symbolConflict (db.of plan.accountId)
  -- who owns the plan does not matter for its validation
  dualWriteEnabled := false
  magicSendEnabled := false
  planAssignment := fun _ => none
  windowsUsername := fun _ => none

def SignalExecutionPlan.rows (plan : SignalExecutionPlan) : List Promotion.ProposedOrderLeg :=
  plan.legs.map fun leg =>
    { planId := plan.approvalId, legIndex := leg.legIndex, takeProfit := leg.takeProfit
      lotSize := leg.lotSize, status := leg.status }

def validate (w : World) (mode : ExecutionMode) (db : Db) (plan : SignalExecutionPlan) : Option String :=
  Promotion.validate (promotionEnv w mode db plan) w.now mode plan.toSignalExecutionPlan plan.rows

def Db.modifyPlan (db : Db) (approvalId accountId : ℕ)
    (f : SignalExecutionPlan → SignalExecutionPlan) : Db :=
  { db with plans := db.plans.map fun plan =>
      if plan.approvalId = approvalId ∧ plan.accountId = accountId then f plan else plan }

/-- `_void_rejected_plan` -/
def voidRejectedPlan (db : Db) (plan : SignalExecutionPlan) (code : String) : Db :=
  db.modifyPlan plan.approvalId plan.accountId fun row =>
    if row.status = .planned then
      { row with status := .voided, holdReason := Text.clip 64 ("promotion_rejected:" ++ code) }
    else row

def promote (mode : ExecutionMode) (db : Db) (plan : SignalExecutionPlan) : Db :=
  let promoted := db.modifyPlan plan.approvalId plan.accountId fun row =>
    { row with status := .promoted, legs := row.legs.map fun leg => { leg with status := .promoted } }
  let jobs : List ExecutionJob := plan.legs.map fun leg =>
    { accountId := plan.accountId, jobType := Promotion.jobTypeFor mode, status := .pending
      leg := some (plan.approvalId, leg.legIndex) }
  { promoted with jobs := promoted.jobs ++ jobs }

/-- `promote_fn`, with what the router does when it is refused. -/
def promoteOrVoid (w : World) (mode : ExecutionMode) (fault : Fault) (db : Db) (plan : SignalExecutionPlan) :
    Db :=
  if fault = .promotion then db
  else
    match validate w mode db plan with
    | some code => voidRejectedPlan db plan code
    | none =>
      if fault = .duplicate then voidRejectedPlan db plan "duplicate_promotion" else promote mode db plan

/-- `_plan_and_promote_one` -/
def planAndPromoteOne (w : World) (approval : PendingSignalApproval) (telegramDate : Option Time)
    (mode : ExecutionMode) (db : Db) (target : Target) : Db :=
  if w.faults target.1 = .planning then db
  else
    match planDemoExecution w approval telegramDate target.2 db with
    | .error _ => db
    | .ok (db, plan) =>
      if plan.status = .planned then promoteOrVoid w mode (w.faults target.1) db plan else db

/-! ### The router -/

def destinations (w : World) (approval : PendingSignalApproval) : List Target :=
  match w.effectiveMode approval with
  | .error _ => []
  | .ok mode => w.targets mode approval.source

/-- The approval as the planning sees it, if the router goes on. -/
def approved (w : World) (approval : PendingSignalApproval) : Option PendingSignalApproval :=
  if !w.systemActor then none
  else
    match approval.status with
    | .pendingApproval => if w.approves then some { approval with status := .approved } else none
    | .approved => some approval
    | .other => none

/-- `_auto_execute` -/
def routeAcquiredSignal (w : World) (approval : PendingSignalApproval) (telegramDate : Option Time)
    (db : Db) : Db :=
  match w.effectiveMode approval, approved w approval with
  | .ok mode, some approved =>
    (w.targets mode approval.source).foldl (planAndPromoteOne w approved telegramDate mode) db
  | _, _ => db

end AutoRouter
end GuvFX
