/-
# The commands of the providers

The provider of a signal follows it up with commands that reply to its message.  Two of them end a
plan: one closes all its positions, the other cancels it.  The engine finds the plan, waits until no
order of it is in flight, voids it or cancels the order jobs that nobody has claimed, queues a job
for the close of every position that it finds open, and looks once more for orders in flight before
it takes the command for applied.  A command that meets one is left for the next round.

The engine runs each command in a transaction of its own, beside the workers, the syncs and the
promotions, so that each of its queries is a step here.
-/
import GuvFX.Execution.PlanSlots

namespace GuvFX
namespace ProviderCommands

open Runs Promotion
open Consumer (JobType JobStatus)

/-! ### Records -/

inductive CommandType where
  | closeAll
  | cancel
  deriving DecidableEq, Repr

structure CloseJob where
  accountId : ℕ
  terminalNodeId : Option ℕ
  status : JobStatus := .pending
  windowsUsername : String
  ticket : String
  symbol : String
  planId : ℕ
  legIndex : ℕ
  signalSource : String
  correlationId : String
  reason : String := "provider_close"
  deriving DecidableEq, Repr

/-- The plan of a command, as it was found. -/
structure Target where
  planId : ℕ
  plan : SignalExecutionPlan
  deriving DecidableEq, Repr

abbrev OpenLeg := ProposedOrderLeg × Orders.Trade

inductive Command where
  | pending
  | targeted (target : Target)
  /-- The plan may be voided, or its order jobs may be cancelled. -/
  | applying (target : Target)
  | cancelled (target : Target)
  /-- The trades of these legs are still to be looked up. -/
  | reading (target : Target) (legs : List ProposedOrderLeg) (opened : List OpenLeg)
  | closing (target : Target) (opened : List OpenLeg)
  | rechecking (target : Target)
  | applied (planId : ℕ)
  /-- Rejected, ambiguous or expired. -/
  | refused
  deriving DecidableEq, Repr

structure State where
  orders : Orders.State
  types : ℕ → CommandType
  /-- Does the command reply to the message of the plan, in its chat and from its source? -/
  replies : ℕ → ℕ → Bool
  commands : ℕ → Command
  closeJobs : Table CloseJob

inductive Action where
  | orders (a : Orders.Action)
  /-- Somebody else queues the close of a position. -/
  | createCloseJob (job : CloseJob)
  | workCloseJob (i : ℕ) (status : JobStatus)
  | expire (c : ℕ)
  | resolveTargetPlan (c : ℕ)
  | applyCommand (c : ℕ)
  | cancelPlan (c : ℕ)
  | cancelPendingOrderJobs (c : ℕ) (locked : ℕ → Bool)
  | openLegs (c : ℕ)
  | legTrade (c : ℕ)
  | enqueueClose (c : ℕ)
  | recheck (c : ℕ)

namespace State

def db (s : State) : Db := s.orders.base.db

def withCommand (s : State) (c : ℕ) (command : Command) : State :=
  { s with commands := Function.update s.commands c command }

def withOrders (s : State) (orders : Orders.State) : State := { s with orders }

end State

/-! ### The engine -/

def targetPlans (s : State) (c : ℕ) : List (ℕ × SignalExecutionPlan) :=
  s.db.plans.filter fun k plan => s.replies c k ∧ plan.status ∈ [.planned, .promoted]

def resolveTargetPlan (s : State) (c : ℕ) : State :=
  match targetPlans s c with
  | [(k, plan)] => s.withCommand c (.targeted ⟨k, plan⟩)
  | _ => s.withCommand c .refused

/-- A command that meets an order in flight is deferred. -/
def applyCommand (s : State) (c : ℕ) (target : Target) : State :=
  let closeAll := s.types c = .closeAll
  let orders := Orders.step s.orders
    (.promotion (.command c target.planId closeAll fun _ => false))
  (s.withOrders orders).withCommand c
    (if orders.base.commands c = .idle then .pending else .applying target)

/-- Void the plan, which ends the command; or go on to its orders. -/
def cancelPlan (s : State) (c : ℕ) (target : Target) : State :=
  let orders := Orders.step s.orders (.promotion (.cancelPlan c))
  (s.withOrders orders).withCommand c
    (if orders.base.commands c = .idle then .applied target.planId else .applying target)

def cancelPendingOrderJobs (s : State) (c : ℕ) (target : Target) (locked : ℕ → Bool) : State :=
  (s.withOrders (Orders.step s.orders (.promotion (.cancelJobs c locked)))).withCommand c
    (.cancelled target)

def tradeOfLeg (trades : Table Orders.Trade) (target : Target) (leg : ProposedOrderLeg) :
    Option Orders.Trade :=
  Orders.legTrade trades target.plan.accountId (legComment target.planId leg.legIndex)

def readLeg (trades : Table Orders.Trade) (target : Target) (opened : List OpenLeg) :
    List ProposedOrderLeg → Command
  | [] => .closing target opened
  | leg :: rest =>
    match (tradeOfLeg trades target leg).filter (·.closeTime.isNone) with
    | none => .reading target rest opened
    | some trade => .reading target rest (opened ++ [(leg, trade)])

def legBeingClosed (closeJobs : Table CloseJob) (trade : Orders.Trade) : Bool :=
  (closeJobs.first fun _ job => job.status ∈ [.pending, .running] ∧
    job.accountId = trade.accountId ∧ job.ticket = trade.ticket).isSome

def closeJob (terminalNodeId : Option ℕ) (username : String) (target : Target) (leg : OpenLeg) :
    CloseJob where
  accountId := target.plan.accountId
  terminalNodeId := terminalNodeId
  windowsUsername := username
  ticket := leg.2.ticket
  symbol := target.plan.symbol
  planId := target.planId
  legIndex := leg.1.legIndex
  signalSource := target.plan.source
  correlationId := target.plan.correlationId

/-- Queue the close of a position, unless it has no ticket or its account no user, or a close is
under way. -/
def enqueueClose (env : Env) (closeJobs : Table CloseJob) (target : Target) (leg : OpenLeg) :
    Table CloseJob :=
  let username := (env.windowsUsername target.plan.accountId).getD ""
  if username = "" ∨ leg.2.ticket = "" then closeJobs
  else if legBeingClosed closeJobs leg.2 then closeJobs
  else
    closeJobs.insert closeJobs.fresh
      (closeJob (env.accounts target.plan.accountId).terminalNodeId username target leg)

/-- The command is applied if no order is in flight now. -/
def recheck (s : State) (c : ℕ) (target : Target) : State :=
  s.withCommand c
    (if hasUnresolvedFills s.db target.planId
        (Orders.ingested s.orders.trades target.plan.accountId) then .pending
    else .applied target.planId)

/-! ### The system -/

def isCommand : Orders.Action → Bool
  | .promotion (.command ..) | .promotion (.cancelPlan _) | .promotion (.cancelJobs ..) => true
  | _ => false

def step (s : State) : Action → State
  | .orders a => if isCommand a then s else s.withOrders (Orders.step s.orders a)
  | .createCloseJob job => { s with closeJobs := s.closeJobs.insert s.closeJobs.fresh job }
  | .workCloseJob i status =>
    { s with closeJobs := s.closeJobs.modify i fun job => { job with status } }
  | .expire c =>
    match s.commands c with
    | .pending => s.withCommand c .refused
    | _ => s
  | .resolveTargetPlan c =>
    match s.commands c with
    | .pending => resolveTargetPlan s c
    | _ => s
  | .applyCommand c =>
    match s.commands c with
    | .targeted target => applyCommand s c target
    | _ => s
  | .cancelPlan c =>
    match s.commands c, s.orders.base.commands c with
    | .applying target, .cancelling _ => cancelPlan s c target
    | _, _ => s
  | .cancelPendingOrderJobs c locked =>
    match s.commands c, s.orders.base.commands c with
    | .applying target, .withdrawing _ => cancelPendingOrderJobs s c target locked
    | _, _ => s
  | .openLegs c =>
    match s.commands c with
    | .cancelled target =>
      s.withCommand c (.reading target ((legsOf s.db target.planId).map Prod.snd) [])
    | _ => s
  | .legTrade c =>
    match s.commands c with
    | .reading target legs opened =>
      s.withCommand c (readLeg s.orders.trades target opened legs)
    | _ => s
  | .enqueueClose c =>
    match s.commands c with
    | .closing target (leg :: rest) =>
      { s.withCommand c (.closing target rest) with
        closeJobs := enqueueClose s.orders.base.env s.closeJobs target leg }
    | .closing target [] => s.withCommand c (.rechecking target)
    | _ => s
  | .recheck c =>
    match s.commands c with
    | .rechecking target => recheck s c target
    | _ => s

/-- Nobody has planned anything yet, and no command has been looked at. -/
def start (env : Env) (now : Time) (types : ℕ → CommandType) (replies : ℕ → ℕ → Bool) : State where
  orders := Orders.start env now
  types := types
  replies := replies
  commands := fun _ => .pending
  closeJobs := .empty

end ProviderCommands
end GuvFX
