/-
# Strategy templates

A template prepares its indicators over all bars and then answers with a signal at one bar after the
other.  The engine of the templates runs the common loop with these signals; behind it, every trade is
tagged with the regime of the market at its entry, if the regimes can be classified at all.
-/
import GuvFX.Backtests.Engine

namespace GuvFX
namespace Backtests

open Loops

variable {F : Type} (host : Host F)

/-! ### Signals and parameters -/

inductive Signal (F : Type)
  | none
  | close (reason : String)
  | buy (sl tp : F) (reason : String)
  | sell (sl tp : F) (reason : String)

/-- The parameters of a template, by their names. -/
abbrev Params (F : Type) := List (String × F)

def Params.get (params : Params F) (name : String) (default : F) : F :=
  ((params.find? fun p => p.1 = name).map (·.2)).getD default

def period (params : Params F) (name : String) (default : ℤ) : Option ℤ :=
  host.asInt (params.get name (host.ofInt default))

abbrev Indicators (F : Type) := String → List (Option F)

structure Template (F : Type) where
  name : String
  version : String
  defaultParams : Params F
  minBars : Params F → Option ℤ
  prepare : List (Bar F) → Params F → Option (Indicators F)
  signal : ℤ → List (Bar F) → Indicators F → Params F → Option (Position F) → Option (Signal F)

def pip : F := host.lit (1 / 10000)

/-- A signal to buy or to sell, with its stop and its target. -/
def enterAt (side : Side) (price slDist tpDist : F) (reason : String) : Signal F :=
  match side with
  | .buy => .buy (host.sub price slDist) (host.add price tpDist) reason
  | .sell => .sell (host.add price slDist) (host.sub price tpDist) reason

/-! ### Two moving averages -/

def emaTrend : Template F where
  name := "ema_trend"
  version := "1.0"
  defaultParams := [("fast_ema", host.ofInt 20), ("slow_ema", host.ofInt 50),
    ("sl_pips", host.ofInt 30), ("tp_pips", host.ofInt 60)]
  minBars params := do
    let fast ← period host params "fast_ema" 20
    let slow ← period host params "slow_ema" 50
    some (max fast slow + 2)
  prepare bars params := do
    let closes := bars.map (·.close)
    let fast ← ema host closes (← period host params "fast_ema" 20)
    let slow ← ema host closes (← period host params "slow_ema" 50)
    some fun name => if name = "fast" then fast else if name = "slow" then slow else []
  signal i bars ind params position :=
    if i < 1 then some .none
    else do
      match ← crossAt (ind "fast") (ind "slow") i with
      | none => some .none
      | some c =>
        let slDist := host.mul (params.get "sl_pips" (host.ofInt 30)) (pip host)
        let tpDist := host.mul (params.get "tp_pips" (host.ofInt 60)) (pip host)
        match position with
        | some p =>
          if p.side = .buy ∧ c.down host then some (.close "ema_cross_down")
          else if p.side = .sell ∧ c.up host then some (.close "ema_cross_up")
          else some .none
        | none =>
          let bar ← pyGet bars i
          if c.up host then some (enterAt host .buy bar.close slDist tpDist "ema_cross_up")
          else if c.down host then
            some (enterAt host .sell bar.close slDist tpDist "ema_cross_down")
          else some .none

/-! ### Reversion to the mean -/

def rsiMeanReversion : Template F where
  name := "rsi_mean_reversion"
  version := "1.0"
  defaultParams := [("rsi_period", host.ofInt 14), ("oversold", host.ofInt 30),
    ("overbought", host.ofInt 70), ("sl_pips", host.ofInt 25), ("tp_pips", host.ofInt 40)]
  minBars params := do
    let p ← period host params "rsi_period" 14
    some (p + 5)
  prepare bars params := do
    let series ← rsi host (bars.map (·.close)) (← period host params "rsi_period" 14)
    some fun name => if name = "rsi" then series else []
  signal i bars ind params position := do
    match ← pyGet (ind "rsi") i with
    | none => some .none
    | some r =>
      let slDist := host.mul (params.get "sl_pips" (host.ofInt 25)) (pip host)
      let tpDist := host.mul (params.get "tp_pips" (host.ofInt 40)) (pip host)
      let bar ← pyGet bars i
      let isOver := host.le (params.get "overbought" (host.ofInt 70)) r
      let isUnder := host.le r (params.get "oversold" (host.ofInt 30))
      match position with
      | some p =>
        if p.side = .buy ∧ isOver then some (.close "rsi_overbought_exit")
        else if p.side = .sell ∧ isUnder then some (.close "rsi_oversold_exit")
        else some .none
      | none =>
        if isUnder then some (enterAt host .buy bar.close slDist tpDist "rsi_oversold")
        else if isOver then some (enterAt host .sell bar.close slDist tpDist "rsi_overbought")
        else some .none

/-! ### Breakout of a band -/

def wasWithin (bars : List (Bar F)) (i : ℤ) (within : F → Bool) : Option Bool :=
  if i = 0 then some true else (pyGet bars (i - 1)).map fun previous => within previous.close

def atrBreakout : Template F where
  name := "atr_breakout"
  version := "1.0"
  defaultParams := [("atr_period", host.ofInt 14), ("atr_mult", host.lit (3 / 2)),
    ("sma_period", host.ofInt 20), ("sl_atr_mult", host.lit 1), ("tp_atr_mult", host.lit 2)]
  minBars params := do
    let a ← period host params "atr_period" 14
    let s ← period host params "sma_period" 20
    some (max a s + 5)
  prepare bars params := do
    let atrs ← atr host bars (← period host params "atr_period" 14)
    let smas ← sma host (bars.map (·.close)) (← period host params "sma_period" 20)
    some fun name => if name = "atr" then atrs else if name = "sma" then smas else []
  signal i bars ind params position := do
    let a ← pyGet (ind "atr") i
    let m ← pyGet (ind "sma") i
    match a, m with
    | some a, some m =>
      let mult := params.get "atr_mult" (host.lit (3 / 2))
      let upper := host.add m (host.mul a mult)
      let lower := host.sub m (host.mul a mult)
      let slDist := host.mul a (params.get "sl_atr_mult" (host.lit 1))
      let tpDist := host.mul a (params.get "tp_atr_mult" (host.lit 2))
      let bar ← pyGet bars i
      let price := bar.close
      match position with
      | some p =>
        if p.side = .buy ∧ host.lt price m then some (.close "mean_reversion")
        else if p.side = .sell ∧ host.lt m price then some (.close "mean_reversion")
        else some .none
      | none =>
        -- the bar before is looked at only when the price is outside the band
        let up ← if host.lt upper price then wasWithin bars i fun x => host.le x upper else some false
        if up then some (enterAt host .buy price slDist tpDist "atr_breakout_up")
        else
          let down ← if host.lt price lower then wasWithin bars i fun x => host.le lower x else some false
          if down then some (enterAt host .sell price slDist tpDist "atr_breakout_down")
          else some .none
    | _, _ => some .none

/-! ### Breakout of a session -/

def londonBreakout : Template F where
  name := "london_breakout"
  version := "1.0"
  defaultParams := [("asian_start_hour", host.ofInt 0), ("asian_end_hour", host.ofInt 7),
    ("london_start_hour", host.ofInt 7), ("london_end_hour", host.ofInt 9),
    ("sl_pips", host.ofInt 20), ("tp_pips", host.ofInt 40)]
  minBars _ := some 50
  prepare bars params := do
    let (highs, lows) ← sessionRanges host bars (params.get "asian_start_hour" (host.ofInt 0))
      (params.get "asian_end_hour" (host.ofInt 7))
    some fun name => if name = "asian_high" then highs else if name = "asian_low" then lows else []
  signal i bars ind params position := do
    let bar ← pyGet bars i
    let _ ← host.utc bar.time
    let hour := host.ofInt (hourOf bar.time)
    let lonStart := params.get "london_start_hour" (host.ofInt 7)
    let lonEnd := params.get "london_end_hour" (host.ofInt 9)
    let high ← pyGet (ind "asian_high") i
    let low ← pyGet (ind "asian_low") i
    match high, low with
    | some ah, some al =>
      if host.eq ah (host.ofInt 0) then some .none
      else
        let slDist := host.mul (params.get "sl_pips" (host.ofInt 20)) (pip host)
        let tpDist := host.mul (params.get "tp_pips" (host.ofInt 40)) (pip host)
        let price := bar.close
        if position.isSome ∧ host.le lonEnd hour then some (.close "session_end")
        else if ¬ (host.le lonStart hour ∧ host.lt hour lonEnd) then some .none
        else if position.isSome then some .none
        else if host.lt ah price then
          some (enterAt host .buy price slDist tpDist "london_break_high")
        else if host.lt price al then
          some (enterAt host .sell price slDist tpDist "london_break_low")
        else some .none
    | _, _ => some .none

/-- The registry. -/
def templates : List (Template F) :=
  [emaTrend host, rsiMeanReversion host, atrBreakout host, londonBreakout host]

def getTemplate (name : String) : Option (Template F) :=
  (templates host).find? fun t => t.name = name

/-! ### Regimes -/

def logReturns (closes : List F) (i lookback : ℤ) : Option (List F) :=
  loop (fun xs j => do
    let previous ← pyGet closes (j - 1)
    if host.lt (host.ofInt 0) previous then
      let current ← pyGet closes j
      let ratio ← host.div current previous
      let x ← host.log ratio
      some (xs ++ [x])
    else some xs) (pyRange (i - lookback + 1) (i + 1)) []

/-- The regime at a bar; it stays as it is when there are too few returns. -/
def regimeAt (closes : List F) (lookback : ℤ) (k : F) (i : ℤ) : Option (Option Regime) := do
  let current ← pyGet closes i
  let past ← pyGet closes (i - lookback)
  let ret ← host.div (host.sub current past) past
  let returns ← logReturns host closes i lookback
  if returns.length < 2 then some none
  else
    let mean ← host.div (host.sum returns) (host.ofInt returns.length)
    let squares ← returns.mapM fun x => host.square (host.sub x mean)
    let variance ← host.div (host.sum squares) (host.ofInt (returns.length - 1))
    let vol ← if host.lt (host.ofInt 0) variance then host.sqrt variance else some (pip host)
    let root ← host.sqrt (host.ofInt lookback)
    let threshold := host.mul (host.mul k vol) root
    if host.le threshold ret then some (some .bull)
    else if host.le ret (host.neg threshold) then some (some .bear)
    else some (some .sideways)

def classifyRegimes (bars : List (Bar F)) (lookback : ℤ) (k : F) : Option (List Regime) :=
  if bars.length < lookback + 5 then some []
  else
    let closes := bars.map (·.close)
    loop (fun labels i => do
      match ← regimeAt host closes lookback k i with
      | some label => pySet labels i label
      | none => some labels) (pyRange lookback bars.length)
      (List.replicate bars.length .sideways)

def engineRegimes (bars : List (Bar F)) : Option (List Regime) :=
  classifyRegimes host bars 20 (host.lit 1)

def tagTrade (labels : List Regime) (t : BacktestTrade F) : BacktestTrade F :=
  if 0 ≤ t.entryBar then { t with regime := labels[t.entryBar.toNat]? } else t

/-- The tags are left out when the classification raises. -/
def tagTrades (labels : Option (List Regime)) (trades : List (BacktestTrade F)) :
    List (BacktestTrade F) :=
  match labels with
  | some labels => trades.map (tagTrade labels)
  | none => trades

/-! ### The engine of the templates -/

def closeReason : Signal F → Option String
  | .close reason => some (if reason = "" then "signal_exit" else reason)
  | _ => none

def entryOf : Signal F → Option (Entry F)
  | .buy sl tp _ => some { side := .buy, levels := fun _ => (sl, tp) }
  | .sell sl tp _ => some { side := .sell, levels := fun _ => (sl, tp) }
  | _ => none

def templateStrategy (template : Template F) (params : Params F) (bars : List (Bar F))
    (ind : Indicators F) : Strategy F where
  skip _ := some false
  close i p := (template.signal i bars ind params (some p)).map closeReason
  enter i := (template.signal i bars ind params none).map entryOf

structure TemplateOptions (F : Type) where
  params : Params F
  lots : F
  spreadPips : F
  pipValue : F
  pipSize : Option F

def TemplateOptions.costs (o : TemplateOptions F) (symbol : String) : Costs F :=
  { spreadPips := o.spreadPips, pipSize := o.pipSize.getD (pipSizeOf host symbol),
    pipValue := o.pipValue, lots := o.lots }

def runTemplateBacktest (bars : List (Bar F)) (templateName : String) (o : TemplateOptions F)
    (symbol : String) (initialBalance : F) : Option (BacktestResult F) := do
  let template ← getTemplate host templateName
  let params := o.params ++ template.defaultParams
  let minBars ← template.minBars params
  if bars.length < minBars + 5 then
    some (refusedResult symbol bars initialBalance ("Not enough bars (" ++ toString bars.length
      ++ ") for template " ++ templateName ++ " (need " ++ toString minBars ++ ")"))
  else
    let ind ← template.prepare bars params
    let st ← simulate host (o.costs host symbol) (templateStrategy template params bars ind) bars
      minBars initialBalance
    let result := resultOf host symbol bars initialBalance st
    some { result with trades := tagTrades (engineRegimes host bars) result.trades }

end Backtests
end GuvFX
