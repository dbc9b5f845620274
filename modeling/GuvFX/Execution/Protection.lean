/-
# The protection ladder of a leg

A signal is traded in legs with a take-profit each.  When the first target has closed in profit, the
stop-loss of each of the others is moved to its own entry; when the second has, that of the third is
moved to the price of the second.  A sweep over the promoted plans derives the stage that a leg should
have from the trades, compares it with the stage that the leg has, and enqueues a modify job, whose
result a later sweep records on the leg.

A failed job is retried up to a bound.  A rejection that will pass by itself is retried as well, without
counting.  Two schedulers run the sweep, the chain of the monitors and a watcher, and nothing is locked:
a sweep writes what it has computed from the rows it read.
-/
import Mathlib.Algebra.Order.Field.Rat
import Mathlib.Algebra.Order.Group.Unbundled.Abs
import Mathlib.Data.List.Basic
import GuvFX.Lib.Runs
import GuvFX.TradeCopier.Consumer

namespace GuvFX
namespace Protection

open Runs
open Consumer (JobStatus)

/-! ### Records -/

inductive Stage where
  | initial
  | breakeven
  | tp2Locked
  deriving DecidableEq, Repr

def Stage.rank : Stage → ℕ
  | .initial => 0
  | .breakeven => 1
  | .tp2Locked => 2

inductive Direction where
  | buy
  | sell
  | unknown
  deriving DecidableEq, Repr

structure Trade where
  ticket : String
  openPrice : Option ℚ
  closePrice : Option ℚ := none
  closeTime : Option Time := none
  deriving DecidableEq, Repr

structure PlanLeg where
  takeProfit : Option ℚ
  deriving DecidableEq, Repr

structure Plan where
  direction : Direction
  stopLoss : Option ℚ
  legs : ℕ → Option PlanLeg

/-- What stays the same: the settings, the plan, and which of its legs is followed. -/
structure Config where
  maxAttempts : ℤ
  tpReachFraction : ℚ
  plan : Plan
  legIndex : ℕ

structure Leg where
  protectionStage : Stage := .initial
  breakevenJob : Option ℕ := none
  breakevenAttempts : ℕ := 0
  breakevenAppliedAt : Option Time := none
  deriving DecidableEq, Repr

/-- A modify job of the ladder with what its result says. -/
structure Job where
  ticket : String
  protectionStage : Stage
  sl : ℚ
  tp : Option ℚ
  status : JobStatus := .pending
  retryable : Bool := false
  alreadyClosed : Bool := false
  deriving DecidableEq, Repr

/-- What the sweep reads and does not write. -/
structure Env where
  breakevenEnabled : Bool
  promoted : Bool
  /-- The source of the plan has opted in to the second stage. -/
  incrementalProtection : Bool
  windowsUsername : String
  /-- The latest trade of each leg. -/
  trades : ℕ → Option Trade

/-! ### What a leg should have -/

def isRiskReducing (direction : Direction) (newSl oldSl : Option ℚ) : Bool :=
  match newSl, oldSl, direction with
  | some new, some old, .buy => old < new
  | some new, some old, .sell => new < old
  | _, _, _ => false

def closedProfitably (reach : ℚ) (trade : Trade) (tpPrice entry : Option ℚ) (direction : Direction) :
    Bool :=
  match trade.closeTime, trade.closePrice, tpPrice, entry with
  | some _, some cp, some tp, some en =>
    let dist := |tp - en|
    if dist = 0 then false
    else match direction with
      | .sell => dist * reach ≤ en - cp
      | .buy => dist * reach ≤ cp - en
      | .unknown => false
  | _, _, _, _ => false

/-- The leg at an index has closed at its target. -/
def tpHit (cfg : Config) (trades : ℕ → Option Trade) (i : ℕ) : Bool :=
  match cfg.plan.legs i, trades i with
  | some leg, some trade =>
    closedProfitably cfg.tpReachFraction trade leg.takeProfit trade.openPrice cfg.plan.direction
  | _, _ => false

/-- The highest stage that applies to the leg, and its stop-loss. -/
def desiredStage (cfg : Config) (trades : ℕ → Option Trade) (allowTp2Lock : Bool) : Stage × Option ℚ :=
  if allowTp2Lock ∧ tpHit cfg trades 2 ∧ cfg.legIndex = 3 then
    (.tp2Locked, (cfg.plan.legs 2).bind (·.takeProfit))
  else if tpHit cfg trades 1 ∧ (cfg.legIndex = 2 ∨ cfg.legIndex = 3) then
    (.breakeven, (trades cfg.legIndex).bind (·.openPrice))
  else (.initial, none)

/-- The stop-loss that an advance is compared with. -/
def baselineSl (cfg : Config) (leg : Leg) (trade : Trade) : Option ℚ :=
  if leg.protectionStage = .breakeven then trade.openPrice else cfg.plan.stopLoss

/-! ### The turn of a leg -/

/-- What the last job of a leg means for a stage. -/
inductive Reconciled where
  | skip
  /-- The broker has moved the stop-loss. -/
  | applied
  /-- A job is to be enqueued as the attempt with this number. -/
  | attempt (n : ℕ)
  deriving DecidableEq, Repr

def reconcile (maxAttempts : ℤ) (leg : Leg) (desired : Stage) : Option Job → Reconciled
  | none => .attempt 1
  | some job =>
    if job.protectionStage = desired then
      match job.status with
      | .success => if job.alreadyClosed then .skip else .applied
      | .pending | .running => .skip
      | .failed =>
        -- a soft rejection is tried again as the same attempt
        if job.retryable then .attempt leg.breakevenAttempts
        else if maxAttempts ≤ leg.breakevenAttempts then .skip
        else .attempt (leg.breakevenAttempts + 1)
    else .attempt 1

/-- A job to be enqueued. -/
structure Order where
  trade : Trade
  stage : Stage
  sl : ℚ
  attempt : ℕ
  deriving DecidableEq, Repr

inductive Verdict where
  | skip
  | apply (stage : Stage)
  | enqueue (order : Order)
  deriving DecidableEq, Repr

/-- What a sweep decides from the leg and the job that it has read. -/
def decision (cfg : Config) (trades : ℕ → Option Trade) (allowTp2Lock : Bool) (leg : Leg)
    (job : Option Job) : Verdict :=
  match trades cfg.legIndex with
  | none => .skip
  | some trade =>
    if trade.closeTime.isSome then .skip
    else
      let desired := desiredStage cfg trades allowTp2Lock
      if desired.1.rank ≤ leg.protectionStage.rank then .skip
      else match reconcile cfg.maxAttempts leg desired.1 job with
        | .skip => .skip
        | .applied => .apply desired.1
        | .attempt n =>
          match desired.2 with
          | none => .skip
          | some sl =>
            if isRiskReducing cfg.plan.direction (some sl) (baselineSl cfg leg trade) then
              .enqueue ⟨trade, desired.1, sl, n⟩
            else .skip

/-! ### The system -/

/-- How far a sweep has come with the leg. -/
inductive Place where
  | idle
  /-- The plans and the sources have been read. -/
  | started (allowTp2Lock : Bool) (windowsUsername : String)
  | loaded (allowTp2Lock : Bool) (windowsUsername : String) (leg : Leg) (job : Option Job)
  | applying (leg : Leg) (stage : Stage)
  | superseding (windowsUsername : String) (leg : Leg) (order : Order)
  | checking (windowsUsername : String) (leg : Leg) (order : Order)
  | creating (leg : Leg) (order : Order)
  /-- The job `id` has been created and the leg not been saved. -/
  | linking (leg : Leg) (id : ℕ) (attempt : ℕ)
  deriving DecidableEq, Repr

structure State where
  env : Env
  leg : Leg := {}
  /-- The modify jobs of the ladder for the leg, in the order of their ids. -/
  jobs : List Job := []
  sweeps : ℕ → Place := fun _ => .idle

/-- How a worker ends a job. -/
inductive Outcome where
  | success (alreadyClosed : Bool)
  | failed (retryable : Bool)
  deriving DecidableEq, Repr

inductive Action where
  /-- The settings, the plan and the trades are changed. -/
  | env (e : Env)
  | claim (id : ℕ)
  | finish (id : ℕ) (outcome : Outcome)
  | start (p : ℕ)
  | load (p : ℕ)
  | decide (p : ℕ)
  | apply (p : ℕ) (now : Time)
  | supersede (p : ℕ)
  | check (p : ℕ)
  | create (p : ℕ)
  | link (p : ℕ)
  /-- The sweep is killed. -/
  | stop (p : ℕ)

/-- A worker may still end the job. -/
def Job.isOpen (job : Job) : Bool := job.status = .pending ∨ job.status = .running

def Job.claim (job : Job) : Job :=
  if job.status = .pending then { job with status := .running } else job

def Job.finish (outcome : Outcome) (job : Job) : Job :=
  if job.isOpen then
    match outcome with
    | .success alreadyClosed => { job with status := .success, alreadyClosed }
    | .failed retryable => { job with status := .failed, retryable }
  else job

/-- `_supersede_pending_breakeven` -/
def Job.supersede (ticket : String) (job : Job) : Job :=
  if job.status = .pending ∧ job.ticket = ticket ∧ job.protectionStage = .breakeven then
    { job with status := .failed, retryable := false }
  else job

/-- `_protection_inflight` -/
def protectionInflight (jobs : List Job) (ticket : String) (stage : Stage) : Bool :=
  jobs.any fun job => job.isOpen && job.ticket = ticket && job.protectionStage = stage

namespace State

def goto (s : State) (p : ℕ) (place : Place) : State :=
  { s with sweeps := Function.update s.sweeps p place }

/-- A sweep goes on with what it has decided. -/
def follow (s : State) (p : ℕ) (username : String) (leg : Leg) : Verdict → State
  | .skip => s.goto p .idle
  | .apply stage => s.goto p (.applying leg stage)
  | .enqueue order =>
    -- a breakeven that nobody has claimed is retired before the lock is enqueued
    if order.stage = .tp2Locked then s.goto p (.superseding username leg order)
    else s.goto p (.checking username leg order)

end State

open State

def step (cfg : Config) (s : State) : Action → State
  | .env e => { s with env := e }
  | .claim id => { s with jobs := s.jobs.modify id Job.claim }
  | .finish id outcome => { s with jobs := s.jobs.modify id (Job.finish outcome) }
  | .start p =>
    match s.sweeps p with
    | .idle =>
      if s.env.breakevenEnabled ∧ s.env.promoted then
        s.goto p (.started s.env.incrementalProtection s.env.windowsUsername)
      else s
    | _ => s
  | .load p =>
    match s.sweeps p with
    | .started allow username =>
      s.goto p (.loaded allow username s.leg (s.leg.breakevenJob.bind (s.jobs[·]?)))
    | _ => s
  | .decide p =>
    match s.sweeps p with
    | .loaded allow username leg job =>
      s.follow p username leg (decision cfg s.env.trades allow leg job)
    | _ => s
  | .apply p now =>
    match s.sweeps p with
    | .applying leg stage =>
      let applied := { s with leg := { s.leg with
        protectionStage := stage
        breakevenAppliedAt := leg.breakevenAppliedAt.or (some now) } }
      applied.goto p .idle
    | _ => s
  | .supersede p =>
    match s.sweeps p with
    | .superseding username leg order =>
      let superseded := { s with jobs := s.jobs.map (Job.supersede order.trade.ticket) }
      superseded.goto p (.checking username leg order)
    | _ => s
  | .check p =>
    match s.sweeps p with
    | .checking username leg order =>
      if username = "" ∨ order.trade.ticket = "" ∨
          protectionInflight s.jobs order.trade.ticket order.stage then
        s.goto p .idle
      else s.goto p (.creating leg order)
    | _ => s
  | .create p =>
    match s.sweeps p with
    | .creating leg order =>
      let job : Job :=
        { ticket := order.trade.ticket
          protectionStage := order.stage
          sl := order.sl
          tp := (cfg.plan.legs cfg.legIndex).bind (·.takeProfit) }
      let created := { s with jobs := s.jobs ++ [job] }
      created.goto p (.linking leg s.jobs.length order.attempt)
    | _ => s
  | .link p =>
    match s.sweeps p with
    | .linking _ id attempt =>
      let linked := { s with leg := { s.leg with breakevenJob := some id, breakevenAttempts := attempt } }
      linked.goto p .idle
    | _ => s
  | .stop p => s.goto p .idle

/-- A leg that has just been placed. -/
def init (env : Env) : State := { env }

end Protection
end GuvFX
