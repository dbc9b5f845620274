/-
# The risk controls of a promotion

Before a plan is promoted the platform looks at what its account holds already: the open trades, and
the legs of promoted plans whose trades have not arrived yet.  A plan that would take the account, or
its symbol, over a cap is refused, and so is one on an account with too many positions, a loss today,
too little margin or too many plans on the symbol.  A control that cannot be evaluated refuses.

The controls read what is committed.  A promotion writes later, beside other promotions, and nobody
looks again.
-/
import Mathlib.Algebra.Order.Archimedean.Basic
import GuvFX.Execution.PlanSlots
import GuvFX.Lib.Totals

namespace GuvFX
namespace RiskControls

open Runs Promotion Checks
open Consumer (JobType JobStatus)

/-! ### The settings -/

structure RiskCaps where
  maxAccountExposureLot : ℚ := 240 / 100
  maxSymbolExposureLot : ℚ := 240 / 100
  maxOpenPositionsPerAccount : ℤ := 20
  maxDailyDrawdownAbs : ℚ := 100
  marginLevelFloorPct : ℚ := 300
  marginGuardEnabled : Bool := true
  planMaxConcurrentGroups : ℤ := 10
  deriving DecidableEq, Repr

structure OrderCheck where
  equity : Option ℚ
  freeMargin : Option ℚ
  margin : Option ℚ
  deriving DecidableEq, Repr

/-- What the controls read besides the rows. -/
structure RiskEnv where
  requireTerminalNode : Bool
  nodeActive : ℕ → Bool
  orderCheck : SignalExecutionPlan → ℚ → Option OrderCheck
  profit : ℕ → ℚ
  /-- Does an evaluation for the plan end in an exception? -/
  raises : SignalExecutionPlan → Bool

/-! ### What an account holds -/

def isOpenTrade (accountId : ℕ) (symbol : String) (trade : Orders.Trade) : Bool :=
  trade.accountId = accountId ∧ trade.closeTime = none ∧ (symbol = "" ∨ trade.symbol = symbol)

def openPositionLots (trades : Table Orders.Trade) (accountId : ℕ) (symbol : String) : ℚ :=
  trades.total fun _ trade => if isOpenTrade accountId symbol trade then trade.volume else 0

def openComment (trades : Table Orders.Trade) (accountId : ℕ) (symbol comment : String) : Bool :=
  (trades.first fun _ trade =>
    isOpenTrade accountId symbol trade ∧ trade.comment ≠ "" ∧ trade.comment = comment).isSome

def isPromotedLeg (db : Db) (accountId : ℕ) (symbol : String) (leg : ProposedOrderLeg) : Bool :=
  (db.plans.get leg.planId).any fun plan =>
    plan.accountId = accountId ∧ plan.status = .promoted ∧ (symbol = "" ∨ plan.symbol = symbol)

def activeLegLots (o : Orders.State) (accountId : ℕ) (symbol : String) (excludePlanId : Option ℕ)
    (leg : ProposedOrderLeg) : ℚ :=
  if isPromotedLeg o.base.db accountId symbol leg ∧ excludePlanId ≠ some leg.planId ∧
      openComment o.trades accountId symbol (legComment leg.planId leg.legIndex) = false then
    leg.lotSize
  else 0

def activeSignalLots (o : Orders.State) (accountId : ℕ) (symbol : String)
    (excludePlanId : Option ℕ) : ℚ :=
  o.base.db.legs.total fun _ => activeLegLots o accountId symbol excludePlanId

def openPositionsCount (o : Orders.State) (accountId : ℕ) : ℕ :=
  let openTrades := o.trades.filter fun _ trade => isOpenTrade accountId "" trade
  let activeJobs := o.base.db.jobs.filter fun _ job => job.accountId = accountId ∧
    job.status ∈ [.pending, .running] ∧ job.jobType ∈ [.openTrade, .placeOrder, .placeOrderShadow]
  openTrades.length + activeJobs.length

def startOfDay (now : Time) : Time := 86400 * ⌊now / 86400⌋

def todayRealizedPnl (risk : RiskEnv) (o : Orders.State) (accountId : ℕ) : ℚ :=
  o.trades.total fun p trade =>
    if trade.accountId = accountId ∧ trade.closeTime.any (startOfDay o.base.now ≤ ·) then
      risk.profit p
    else 0

def otherActivePlans (db : Db) (k : ℕ) (plan : SignalExecutionPlan) : ℕ :=
  (db.plans.filter fun i row => row.accountId = plan.accountId ∧ row.symbol = plan.symbol ∧
    row.status ∈ [.planned, .promoted] ∧ i ≠ k).length

/-! ### The controls -/

def nodeAssignmentBlockReason (risk : RiskEnv) (acct : TradingAccount) : Option String :=
  if risk.requireTerminalNode then
    match acct.terminalNodeId with
    | none => some "account_node_unassigned"
    | some node => if risk.nodeActive node then none else some "node_not_active"
  else none

def projectedMarginReason (caps : RiskCaps) (check : OrderCheck) (legLot newTotal : ℚ) :
    Option String :=
  match check.equity.filter (· ≠ 0), check.freeMargin, check.margin.filter (0 < ·) with
  | some equity, some freeAfter, some legMargin =>
    let usedBefore := equity - freeAfter - legMargin
    let projectedUsed := usedBefore + newTotal * (legMargin / legLot)
    if projectedUsed ≤ 0 then none
    else if equity / projectedUsed * 100 < caps.marginLevelFloorPct then some "margin_level_too_low"
    else none
  | _, _, _ => some "margin_unverifiable"

/-- A small order is not checked; a larger one whose margin cannot be verified is refused. -/
def marginGuardReason (caps : RiskCaps) (risk : RiskEnv) (plan : SignalExecutionPlan)
    (legs : List ProposedOrderLeg) (newTotal : ℚ) : Option String :=
  if !caps.marginGuardEnabled then none
  else if newTotal ≤ maxTotalLotPerSignal then none
  else
    match legs with
    | [] => some "margin_unverifiable"
    | leg :: _ =>
      if leg.lotSize ≤ 0 then some "margin_unverifiable"
      else
        match risk.orderCheck plan leg.lotSize with
        | none => some "margin_unverifiable"
        | some check => projectedMarginReason caps check leg.lotSize newTotal

def exposureBut (o : Orders.State) (accountId : ℕ) (symbol : String) (excludePlanId : Option ℕ) :
    ℚ :=
  openPositionLots o.trades accountId symbol + activeSignalLots o accountId symbol excludePlanId

def riskChecks (caps : RiskCaps) (risk : RiskEnv) (o : Orders.State) (k : ℕ)
    (plan : SignalExecutionPlan) (legs : List ProposedOrderLeg) : List (Bool × String) :=
  let newTotal := (legs.map (·.lotSize)).sum
  let node := nodeAssignmentBlockReason risk (o.base.env.accounts plan.accountId)
  let margin := marginGuardReason caps risk plan legs newTotal
  [(node.isNone, node.getD ""),
    (exposureBut o plan.accountId "" (some k) + newTotal ≤ caps.maxAccountExposureLot,
      "account_exposure_exceeded"),
    (exposureBut o plan.accountId plan.symbol (some k) + newTotal ≤ caps.maxSymbolExposureLot,
      "symbol_exposure_exceeded"),
    (openPositionsCount o plan.accountId < caps.maxOpenPositionsPerAccount,
      "max_open_positions_reached"),
    (-caps.maxDailyDrawdownAbs < todayRealizedPnl risk o plan.accountId, "daily_drawdown_hit"),
    (margin.isNone, margin.getD ""),
    (otherActivePlans o.base.db k plan < caps.planMaxConcurrentGroups, "concurrent_position_limit")]

/-- The first control that blocks the promotion of the plan `k`. -/
def evaluatePromotionRisk (caps : RiskCaps) (risk : RiskEnv) (o : Orders.State) (k : ℕ)
    (plan : SignalExecutionPlan) (legs : List ProposedOrderLeg) : Option String :=
  if risk.raises plan then some "risk_state_indeterminate"
  else firstRefusal (riskChecks caps risk o k plan legs)

/-! ### The system -/

structure State where
  orders : Orders.State
  caps : RiskCaps
  risk : RiskEnv
  /-- May something have been added to the account of a promotion since its risk check? -/
  overtaken : ℕ → Bool

inductive Action where
  | setRisk (risk : RiskEnv)
  | orders (a : Orders.Action)

/-- The controls of a promotion that is validated now. -/
def armed (s : State) (session : Session) : Orders.State :=
  let env : Env := { s.orders.base.env with
    promotionRisk := evaluatePromotionRisk s.caps s.risk s.orders session.planId }
  Orders.step s.orders (.promotion (.setEnv env))

/-- Is the position that of a leg of a promoted plan of its account? -/
def isBacked (db : Db) (position : Orders.Position) : Bool :=
  (db.legs.first fun _ leg => isPromotedLeg db position.accountId "" leg ∧
    position.comment = legComment leg.planId leg.legIndex).isSome

/-- The account to which a step may add: by a promotion, or by an open trade that belongs to no
promoted plan. -/
def addsTo (o : Orders.State) : Orders.Action → Option ℕ
  | .promotion (.commit p .done) =>
    match o.base.promoters p with
    | .ready session => some session.plan.accountId
    | _ => none
  | .ingest p stale =>
    match o.positions.get p with
    | some position =>
      if o.trades.get p = none ∧ (Orders.seenTrade position stale).closeTime = none ∧
          isBacked o.base.db position = false then
        some position.accountId
      else none
    | none => none
  | _ => none

def accountOf (o : Orders.State) (p : ℕ) : Option ℕ :=
  (o.base.promoters p).session?.map (·.plan.accountId)

/-- The promotions that a step may have overtaken. -/
def overtakes (s : State) (a : Orders.Action) (p : ℕ) : Bool :=
  s.overtaken p || (accountOf s.orders p).any fun accountId => addsTo s.orders a = some accountId

def step (s : State) : Action → State
  | .setRisk risk => { s with risk }
  | .orders (.promotion (.validate p)) =>
    match s.orders.base.promoters p with
    | .loaded session =>
      { s with
        orders := Orders.step (armed s session) (.promotion (.validate p))
        overtaken := Function.update s.overtaken p false }
    | _ => s
  | .orders a => { s with orders := Orders.step s.orders a, overtaken := overtakes s a }

/-- Nobody has planned anything yet, and there are no positions. -/
def start (env : Env) (now : Time) (caps : RiskCaps) (risk : RiskEnv) : State where
  orders := Orders.start env now
  caps := caps
  risk := risk
  overtaken := fun _ => false

end RiskControls
end GuvFX
