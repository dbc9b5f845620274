/-
# The backtest engines

An engine goes through the bars once.  At every bar it closes an open position at its stop, at its
target or on a signal, opens a new one on a signal, and records the balance; a position that is left at
the end is closed at the last bar.  The two engines of the source share this loop and differ in their
signals: one reads two moving averages itself, the other one asks a template.
-/
import Mathlib.Data.List.Infix
import GuvFX.Backtests.Indicators
import GuvFX.Lib.Text

namespace GuvFX
namespace Backtests

open Loops

variable {F : Type} (host : Host F)

/-! ### Positions and trades -/

inductive Side
  | buy | sell
  deriving DecidableEq, Repr

structure Position (F : Type) where
  side : Side
  entryPrice : F
  sl : F
  tp : F
  entryBar : ℤ
  entryTime : String

inductive Regime
  | bull | bear | sideways
  deriving DecidableEq, Repr

structure BacktestTrade (F : Type) where
  tradeNumber : ℕ
  entryBar : ℤ
  exitBar : ℤ
  entryTime : String
  exitTime : String
  side : Side
  entryPrice : F
  exitPrice : F
  sl : F
  tp : F
  lots : F
  pnl : F
  exitReason : String
  /-- The regime at the entry, which is written behind the reason of the exit. -/
  regime : Option Regime := none
  deriving DecidableEq

/-- The balance at a time, with the bar at which it has been recorded. -/
structure EquityPoint (F : Type) where
  bar : ℤ
  timestamp : String
  equity : F
  deriving DecidableEq

/-- The state of the loop. -/
structure Sim (F : Type) where
  trades : List (BacktestTrade F) := []
  equityCurve : List (EquityPoint F) := []
  balance : F
  position : Option (Position F) := none
  tradeCount : ℕ := 0

structure Costs (F : Type) where
  spreadPips : F
  pipSize : F
  pipValue : F
  lots : F

def Costs.spread (costs : Costs F) : F := host.mul costs.spreadPips costs.pipSize

/-! ### The loop -/

/-- A new position: its side, and its stop and target by the price of the entry. -/
structure Entry (F : Type) where
  side : Side
  levels : F → F × F

/-- The signals of a strategy over the bars that it has been prepared for. -/
structure Strategy (F : Type) where
  /-- The bar is passed over. -/
  skip : ℤ → Option Bool
  close : ℤ → Position F → Option (Option String)
  /-- A new position at a bar. -/
  enter : ℤ → Option (Option (Entry F))

def slTp (bar : Bar F) (p : Position F) : Option (F × String) :=
  match p.side with
  | .buy =>
    if host.le bar.low p.sl then some (p.sl, "sl")
    else if host.le p.tp bar.high then some (p.tp, "tp") else none
  | .sell =>
    if host.le p.sl bar.high then some (p.sl, "sl")
    else if host.le bar.low p.tp then some (p.tp, "tp") else none

def closePrice (costs : Costs F) (bar : Bar F) : Side → F
  | .buy => host.sub bar.close (costs.spread host)
  | .sell => host.add bar.close (costs.spread host)

def entryPrice (costs : Costs F) (bar : Bar F) : Side → F
  | .buy => host.add bar.close (costs.spread host)
  | .sell => host.sub bar.close (costs.spread host)

def closePosition (costs : Costs F) (st : Sim F) (p : Position F) (i : ℤ) (time : String)
    (exitPrice : F) (reason : String) : Option (Sim F) := do
  let pips ← host.div
    (match p.side with
      | .buy => host.sub exitPrice p.entryPrice
      | .sell => host.sub p.entryPrice exitPrice) costs.pipSize
  let pnl := host.round (host.mul (host.mul pips costs.pipValue) costs.lots) 2
  let trade : BacktestTrade F :=
    { tradeNumber := st.tradeCount + 1, entryBar := p.entryBar, exitBar := i,
      entryTime := p.entryTime, exitTime := time, side := p.side,
      entryPrice := host.round p.entryPrice 5, exitPrice := host.round exitPrice 5,
      sl := host.round p.sl 5, tp := host.round p.tp 5, lots := costs.lots, pnl := pnl,
      exitReason := reason }
  some { st with trades := st.trades ++ [trade], balance := host.add st.balance pnl,
                 tradeCount := st.tradeCount + 1, position := none }

def exitOf (costs : Costs F) (strategy : Strategy F) (bar : Bar F) (i : ℤ) (p : Position F) :
    Option (Option (F × String)) :=
  match slTp host bar p with
  | some exit => some (some exit)
  | none => do
    let reason ← strategy.close i p
    some (reason.map fun r => (closePrice host costs bar p.side, r))

/-- The check of an open position. -/
def exitStep (costs : Costs F) (strategy : Strategy F) (bar : Bar F) (time : String) (st : Sim F)
    (i : ℤ) : Option (Sim F) :=
  match st.position with
  | none => some st
  | some p => do
    match ← exitOf host costs strategy bar i p with
    | some (price, reason) => closePosition host costs st p i time price reason
    | none => some st

/-- The check for a new position. -/
def entryStep (costs : Costs F) (strategy : Strategy F) (bar : Bar F) (time : String) (st : Sim F)
    (i : ℤ) : Option (Sim F) :=
  match st.position with
  | some _ => some st
  | none => do
    match ← strategy.enter i with
    | some e =>
      let price := entryPrice host costs bar e.side
      let p : Position F :=
        { side := e.side, entryPrice := price, sl := (e.levels price).1, tp := (e.levels price).2,
          entryBar := i, entryTime := time }
      some { st with position := some p }
    | none => some st

def simStep (costs : Costs F) (strategy : Strategy F) (bars : List (Bar F)) (st : Sim F) (i : ℤ) :
    Option (Sim F) := do
  let bar ← pyGet bars i
  let skip ← strategy.skip i
  if skip then some st
  else
    let time ← host.utc bar.time
    let st ← exitStep host costs strategy bar time st i
    let st ← entryStep host costs strategy bar time st i
    some { st with equityCurve := st.equityCurve ++
      [{ bar := i, timestamp := time, equity := host.round st.balance 2 }] }

def simulate (costs : Costs F) (strategy : Strategy F) (bars : List (Bar F)) (start : ℤ)
    (initialBalance : F) : Option (Sim F) := do
  let st ← loop (simStep host costs strategy bars) (pyRange start bars.length)
    { balance := initialBalance }
  match st.position with
  | none => some st
  | some p =>
    let last ← pyGet bars (-1)
    let time ← host.utc last.time
    closePosition host costs st p (bars.length - 1) time (closePrice host costs last p.side)
      "end_of_data"

/-! ### Results -/

structure BacktestResult (F : Type) where
  symbol : String
  barsCount : ℕ
  initialBalance : F
  finalBalance : F
  trades : List (BacktestTrade F) := []
  equityCurve : List (EquityPoint F) := []
  error : String := ""
  deriving DecidableEq

def pipSizeOf (symbol : String) : F :=
  if "JPY".toList <:+: (Text.upper symbol).toList then host.lit (1 / 100) else host.lit (1 / 10000)

def resultOf (symbol : String) (bars : List (Bar F)) (initialBalance : F) (st : Sim F) :
    BacktestResult F :=
  { symbol := symbol, barsCount := bars.length, initialBalance := initialBalance,
    finalBalance := host.round st.balance 2, trades := st.trades, equityCurve := st.equityCurve }

def refusedResult (symbol : String) (bars : List (Bar F)) (initialBalance : F) (error : String) :
    BacktestResult F :=
  { symbol := symbol, barsCount := bars.length, initialBalance := initialBalance,
    finalBalance := initialBalance, error := error }

/-! ### The engine of two moving averages -/

structure StrategyParams (F : Type) where
  fastEma : ℤ
  slowEma : ℤ
  slPips : F
  tpPips : F
  lots : F
  spreadPips : F
  pipValue : F

/-- The two averages at a bar and at the one before it, where all of them exist. -/
structure Cross (F : Type) where
  prevFast : F
  prevSlow : F
  currFast : F
  currSlow : F

/-- The averages that are read at a bar; the inner value is absent where one of them is. -/
def crossAt (fast slow : List (Option F)) (i : ℤ) : Option (Option (Cross F)) := do
  let prevFast ← pyGet fast (i - 1)
  let prevSlow ← pyGet slow (i - 1)
  let currFast ← pyGet fast i
  let currSlow ← pyGet slow i
  some (match prevFast, prevSlow, currFast, currSlow with
    | some pf, some ps, some cf, some cs =>
      some { prevFast := pf, prevSlow := ps, currFast := cf, currSlow := cs }
    | _, _, _, _ => none)

def Cross.up (c : Cross F) : Bool := host.lt c.currSlow c.currFast && host.le c.prevFast c.prevSlow

def Cross.down (c : Cross F) : Bool := host.lt c.currFast c.currSlow && host.le c.prevSlow c.prevFast

/-- The signals of the first engine. -/
def crossStrategy (params : StrategyParams F) (pipSize : F) (fast slow : List (Option F)) :
    Strategy F where
  skip i := (crossAt fast slow i).map fun c => c.isNone
  close i p := (crossAt fast slow i).map fun c => c.bind fun c =>
    match p.side with
    | .buy => if c.down host then some "signal_exit" else none
    | .sell => if c.up host then some "signal_exit" else none
  enter i := (crossAt fast slow i).map fun c => c.bind fun c =>
    let slDist := host.mul params.slPips pipSize
    let tpDist := host.mul params.tpPips pipSize
    if c.up host then
      some { side := .buy, levels := fun price => (host.sub price slDist, host.add price tpDist) }
    else if c.down host then
      some { side := .sell, levels := fun price => (host.add price slDist, host.sub price tpDist) }
    else none

def runBacktest (bars : List (Bar F)) (params : StrategyParams F) (symbol : String)
    (initialBalance : F) : Option (BacktestResult F) :=
  if bars.length < max params.fastEma params.slowEma + 5 then
    some (refusedResult symbol bars initialBalance "Not enough bars")
  else do
    let closes := bars.map (·.close)
    let fast ← computeEma host closes params.fastEma
    let slow ← computeEma host closes params.slowEma
    let pipSize := pipSizeOf host symbol
    let costs : Costs F :=
      { spreadPips := params.spreadPips, pipSize := pipSize, pipValue := params.pipValue,
        lots := params.lots }
    let st ← simulate host costs (crossStrategy host params pipSize fast slow) bars
      (max params.fastEma params.slowEma + 1) initialBalance
    some (resultOf host symbol bars initialBalance st)

end Backtests
end GuvFX
