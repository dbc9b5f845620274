/-
# Indicators

The indicators are series over all bars, computed once before the bars are gone through.  Each one is a
loop over the bars with a running value; the lists that it reads by an index are read as the language
reads them, so that a negative index counts from the end.

The numbers are those of the language, with its operations and library functions: nothing depends on
how they are computed.
-/
import Mathlib.Algebra.Order.Ring.Rat
import GuvFX.Lib.Loops

namespace GuvFX
namespace Backtests

open Loops

/-- The numbers of the language; an operation that may raise has a value only where it does not. -/
structure Numbers (F : Type) where
  ofInt : ℤ → F
  /-- The number as an integer, if it is one. -/
  asInt : F → Option ℤ
  /-- A number that is written with a decimal point. -/
  lit : ℚ → F
  inf : F
  neg : F → F
  abs : F → F
  add : F → F → F
  sub : F → F → F
  mul : F → F → F
  div : F → F → Option F
  square : F → Option F
  sum : List F → F
  lt : F → F → Bool
  le : F → F → Bool
  eq : F → F → Bool
  round : F → ℕ → F
  log : F → Option F
  sqrt : F → Option F

variable {F : Type}

namespace Numbers

/-- The larger one of two numbers, the first one if none is larger. -/
def max (num : Numbers F) (x y : F) : F := if num.lt x y then y else x

def min (num : Numbers F) (x y : F) : F := if num.lt y x then y else x

end Numbers

/-- What a program needs from its language. -/
structure Host (F : Type) extends Numbers F where
  /-- The time as a text, if the calendar has it. -/
  utc : ℤ → Option String

structure Bar (F : Type) where
  time : ℤ
  open_ : F
  high : F
  low : F
  close : F

variable (host : Host F)

/-! ### Moving averages -/

/-- One price of an exponential moving average. -/
def emaStep (closes : List F) (period : ℤ) (mult : F) (result : List (Option F)) (i : ℤ) :
    Option (List (Option F)) := do
  let price ← pyGet closes i
  if i < period - 1 then some (result ++ [none])
  else if i = period - 1 then
    let first ← host.div (host.sum (pyTake closes period)) (host.ofInt period)
    some (result ++ [some first])
  else
    match ← result.getLast? with
    | some prev => some (result ++ [some (host.add (host.mul (host.sub price prev) mult) prev)])
    | none => some (result ++ [none])

/-- Exponential moving average. -/
def ema (closes : List F) (period : ℤ) : Option (List (Option F)) := do
  let mult ← host.div (host.lit 2) (host.ofInt (period + 1))
  loop (emaStep host closes period mult) (pyRange 0 closes.length) []

/-- The average of the first engine is computed in the same way. -/
def computeEma (closes : List F) (period : ℤ) : Option (List (Option F)) := ema host closes period

/-- One value of a simple moving average. -/
def smaStep (values : List F) (period : ℤ) (result : List (Option F)) (i : ℤ) :
    Option (List (Option F)) :=
  if i < period - 1 then some (result ++ [none])
  else do
    let window := (pyTake values (i + 1)).drop (i - period + 1).toNat
    let mean ← host.div (host.sum window) (host.ofInt period)
    some (result ++ [some mean])

/-- Simple moving average. -/
def sma (values : List F) (period : ℤ) : Option (List (Option F)) :=
  loop (smaStep host values period) (pyRange 0 values.length) []

/-! ### Relative strength -/

def change (closes : List F) (i : ℤ) : Option F := do
  let current ← pyGet closes i
  let previous ← pyGet closes (i - 1)
  some (host.sub current previous)

def gain (x : F) : F := host.max x (host.ofInt 0)
def loss (x : F) : F := host.max (host.neg x) (host.ofInt 0)

/-- The index of two averages. -/
def rsiValue (avgGain avgLoss : F) : Option F :=
  if host.eq avgLoss (host.ofInt 0) then some (host.lit 100)
  else do
    let rs ← host.div avgGain avgLoss
    let part ← host.div (host.ofInt 100) (host.add (host.ofInt 1) rs)
    some (host.sub (host.ofInt 100) part)

/-- The running averages, and the series so far. -/
structure RsiState (F : Type) where
  avgGain : F
  avgLoss : F
  result : List (Option F)

def rsiStep (closes : List F) (period : ℤ) (st : RsiState F) (i : ℤ) : Option (RsiState F) := do
  let x ← change host closes i
  let smooth := fun avg y =>
    host.div (host.add (host.mul avg (host.ofInt (period - 1))) y) (host.ofInt period)
  let avgGain ← smooth st.avgGain (gain host x)
  let avgLoss ← smooth st.avgLoss (loss host x)
  let value ← rsiValue host avgGain avgLoss
  let result ← pySet st.result i (some value)
  some { avgGain := avgGain, avgLoss := avgLoss, result := result }

def rsiChanges (closes : List F) (period : ℤ) : Option (List F) :=
  loop (fun xs i => (change host closes i).map fun x => xs ++ [x]) (pyRange 1 (period + 1)) []

/-- Relative strength index. -/
def rsi (closes : List F) (period : ℤ) : Option (List (Option F)) :=
  let result := List.replicate closes.length none
  if closes.length < period + 1 then some result
  else do
    let changes ← rsiChanges host closes period
    let avgGain ← host.div (host.sum (changes.map (gain host))) (host.ofInt period)
    let avgLoss ← host.div (host.sum (changes.map (loss host))) (host.ofInt period)
    let value ← rsiValue host avgGain avgLoss
    let result ← pySet result period (some value)
    let st ← loop (rsiStep host closes period) (pyRange (period + 1) closes.length)
      { avgGain := avgGain, avgLoss := avgLoss, result := result }
    some st.result

/-! ### True range -/

def trueRange (bars : List (Bar F)) (i : ℤ) : Option F := do
  let bar ← pyGet bars i
  let previous ← pyGet bars (i - 1)
  some (host.max (host.max (host.sub bar.high bar.low)
    (host.abs (host.sub bar.high previous.close))) (host.abs (host.sub bar.low previous.close)))

def trueRanges (bars : List (Bar F)) : Option (List F) :=
  loop (fun trs i => (trueRange host bars i).map fun tr => trs ++ [tr]) (pyRange 1 bars.length) []

/-- The running average, and the series so far. -/
structure AtrState (F : Type) where
  prevAtr : F
  result : List (Option F)

def atrStep (trs : List F) (period : ℤ) (st : AtrState F) (i : ℤ) : Option (AtrState F) := do
  let tr ← pyGet trs i
  let current ← host.div (host.add (host.mul st.prevAtr (host.ofInt (period - 1))) tr)
    (host.ofInt period)
  let result ← pySet st.result (i + 1) (some current)
  some { prevAtr := current, result := result }

/-- Average true range. -/
def atr (bars : List (Bar F)) (period : ℤ) : Option (List (Option F)) :=
  let result := List.replicate bars.length none
  if bars.length < period + 1 then some result
  else do
    let trs ← trueRanges host bars
    if trs.length < period then some result
    else
      let first ← host.div (host.sum (pyTake trs period)) (host.ofInt period)
      let result ← pySet result period (some first)
      let st ← loop (atrStep host trs period) (pyRange period trs.length)
        { prevAtr := first, result := result }
      some st.result

/-! ### Sessions -/

def dateOf (time : ℤ) : ℤ := time / 86400
def hourOf (time : ℤ) : ℤ := time % 86400 / 3600

/-- The range of the session of the current day, and the series so far. -/
structure SessionState (F : Type) where
  currentHigh : F
  currentLow : F
  currentDate : Option ℤ
  highs : List (Option F)
  lows : List (Option F)

/-- The range of the session before a bar: it starts anew with every day. -/
def SessionState.onDate (st : SessionState F) (date : ℤ) : SessionState F :=
  if st.currentDate = some date then st
  else { st with currentHigh := host.lit 0, currentLow := host.inf, currentDate := some date }

def SessionState.observe (st : SessionState F) (asStart asEnd : F) (bar : Bar F) : SessionState F :=
  let hour := host.ofInt (hourOf bar.time)
  let st := st.onDate host (dateOf bar.time)
  if host.le asStart hour && host.lt hour asEnd then
    { st with currentHigh := host.max st.currentHigh bar.high,
              currentLow := host.min st.currentLow bar.low }
  else st

/-- The range is written down where there is one. -/
def SessionState.publish (st : SessionState F) (i : ℤ) : Option (SessionState F) :=
  if host.lt (host.ofInt 0) st.currentHigh && host.lt st.currentLow host.inf then do
    let highs ← pySet st.highs i (some st.currentHigh)
    let lows ← pySet st.lows i (some st.currentLow)
    some { st with highs := highs, lows := lows }
  else some st

def sessionStep (bars : List (Bar F)) (asStart asEnd : F) (st : SessionState F) (i : ℤ) :
    Option (SessionState F) := do
  let bar ← pyGet bars i
  let _ ← host.utc bar.time
  (st.observe host asStart asEnd bar).publish host i

def sessionRanges (bars : List (Bar F)) (asStart asEnd : F) :
    Option (List (Option F) × List (Option F)) := do
  let st ← loop (sessionStep host bars asStart asEnd) (pyRange 0 bars.length)
    { currentHigh := host.lit 0, currentLow := host.inf, currentDate := none,
      highs := List.replicate bars.length none, lows := List.replicate bars.length none }
  some (st.highs, st.lows)

end Backtests
end GuvFX
