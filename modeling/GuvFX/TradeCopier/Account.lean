/-
# Trading accounts and their environment

The environment of an account, demo or live, is derived from its own flag and cross-checked
against the environment of the broker server it is bound to.  A disagreement is an error, and
both gates built on it are closed in that case.
-/
import Mathlib.Data.Rat.Defs

namespace GuvFX

abbrev Time := ℚ

/-- The environment a broker server declares; the column may hold other text. -/
inductive ServerEnvironment where
  | demo
  | live
  | unrecognised
  deriving DecidableEq, Repr

structure BrokerServer where
  serverName : String
  environment : ServerEnvironment
  deriving DecidableEq, Repr

structure TradingAccount where
  userId : ℕ
  accountNumber : String
  brokerServer : Option BrokerServer
  brokerName : String := ""
  isDemo : Bool
  isActive : Bool
  terminalNodeId : Option ℕ
  deriving DecidableEq, Repr

inductive Environment where
  | demo
  | live
  deriving DecidableEq, Repr

inductive ClassificationError where
  | unrecognisedEnvironment
  | mismatch (isDemo : Bool) (environment : ServerEnvironment)
  deriving DecidableEq, Repr

def classificationError (isDemo : Bool) : Option BrokerServer → Option ClassificationError
  | none => none
  | some server =>
    match server.environment with
    | .unrecognised => some .unrecognisedEnvironment
    | .demo => if isDemo then none else some (.mismatch isDemo .demo)
    | .live => if isDemo then some (.mismatch isDemo .live) else none

def accountEnvironment (acct : TradingAccount) : Except ClassificationError Environment :=
  match classificationError acct.isDemo acct.brokerServer with
  | some err => .error err
  | none => .ok (if acct.isDemo then .demo else .live)

def isDemoEnvironment (acct : TradingAccount) : Bool :=
  match accountEnvironment acct with
  | .ok .demo => true
  | _ => false

def isLiveEnvironment (acct : TradingAccount) : Bool :=
  match accountEnvironment acct with
  | .ok .live => true
  | _ => false

end GuvFX
