/-
# The runtime of a trading account

Every trading account has at most one runtime, a row with a state that is changed only by
`record_transition`, which appends the change to the events of the runtime.  Some of the states hold a
slot of the pool; the runtimes of the production cohort are outside of the pool.
-/
import GuvFX.Lib.Text
import GuvFX.TradeCopier.Account

namespace GuvFX
namespace TerminalProvisioning

open Text (strip clip)

/-! ### States -/

inductive RuntimeState where
  | notProvisioned
  | queued
  | blocked
  | provisioning
  | starting
  | authenticating
  | running
  | degraded
  | repairing
  | stopping
  | stopped
  | deprovisioning
  | removed
  | failed
  deriving DecidableEq, Repr

/-- The states in which a runtime holds a slot of the pool. -/
def RuntimeState.held : RuntimeState → Bool
  | .queued | .provisioning | .starting | .authenticating | .running | .degraded | .repairing
  | .stopping => true
  | _ => false

/-- The states that carry a reason. -/
def RuntimeState.attention : RuntimeState → Bool
  | .failed | .degraded | .blocked => true
  | _ => false

inductive Cohort where
  | production
  | beta
  deriving DecidableEq, Repr

/-- The runtime of an account, under the key of the account.  The cohort never changes. -/
structure AccountRuntime where
  cohort : Cohort
  state : RuntimeState := .notProvisioned
  lastError : String := ""
  quarantined : Bool := false
  quarantineReason : String := ""
  lastFailureReason : String := ""
  lastHeartbeatAt : Option Time := none
  /-- How often the row has been written. -/
  saves : ℕ := 0
  deriving DecidableEq, Repr

inductive EventType where
  | transition
  | failure
  deriving DecidableEq, Repr

structure RuntimeEvent where
  eventType : EventType
  fromState : RuntimeState
  toState : RuntimeState
  reasonCode : String
  detail : String
  deriving DecidableEq, Repr

/-- The row after a transition. -/
def AccountRuntime.moved (rt : AccountRuntime) (toState : RuntimeState) (reasonCode : String) :
    AccountRuntime :=
  { rt with
    state := toState
    lastError := if toState.attention then clip 500 reasonCode else ""
    saves := rt.saves + 1 }

def AccountRuntime.moveEvent (rt : AccountRuntime) (toState : RuntimeState) (eventType : EventType)
    (reasonCode detail : String) : RuntimeEvent where
  eventType := eventType
  fromState := rt.state
  toState := toState
  reasonCode := clip 64 reasonCode
  detail := clip 2000 detail

/-! ### The broker login of an account -/

/-- The server that the runtime must log in to: that of the bound broker server, also when it is
blank, and otherwise the name that the customer has typed. -/
def resolveBrokerServer (account : TradingAccount) : Except String String :=
  let server :=
    match account.brokerServer with
    | some server => strip server.serverName
    | none => strip account.brokerName
  if server = "" then .error "broker_server_missing" else .ok server

/-- What the agent answers to a verification; a value that is missing or of another type is `none`. -/
structure VerifyResult where
  running : Bool := false
  loggedIn : Bool := false
  login : Option String := none
  server : Option String := none
  isDemo : Option Bool := none
  loginError : Option String := none
  initError : Option String := none
  pid : Option ℕ := none
  session : Option ℕ := none
  deriving DecidableEq, Repr

structure StepError where
  reasonCode : String
  detail : String := ""
  retryable : Bool := true
  ambiguous : Bool := false
  deriving DecidableEq, Repr

/-- The durable code of a failed login, and whether it is worth another attempt. -/
def loginFailure (reason : Option String) : String × Bool :=
  match reason.getD "" with
  | "invalid_credentials" => ("broker_login_failed", false)
  | "server_unavailable" => ("broker_server_unavailable", true)
  | "timeout" => ("broker_login_timeout", true)
  | "mt5_init_failed" => ("mt5_init_failed", true)
  | "terminal_crashed" => ("terminal_crashed", true)
  | _ => ("broker_login_failed", false)

/-- The broker login that a verification reports is that of the account: the login, the server and
whether it is a demo account. -/
structure LoginMatches (account : TradingAccount) (v : VerifyResult) : Prop where
  loggedIn : v.loggedIn = true
  login : v.login.getD "" = account.accountNumber
  server : ∃ server, resolveBrokerServer account = .ok server ∧ v.server.getD "" = server
  isDemo : v.isDemo = some account.isDemo

def loginChecks (account : TradingAccount) (v : VerifyResult) (server : String) :
    Except StepError Unit :=
  if !v.loggedIn then
    .error { reasonCode := (loginFailure v.loginError).1, retryable := (loginFailure v.loginError).2 }
  else if v.login.getD "" ≠ account.accountNumber then
    .error { reasonCode := "broker_identity_mismatch", retryable := false }
  else if v.server.getD "" ≠ server then
    .error { reasonCode := "broker_identity_mismatch", retryable := false }
  else if v.isDemo ≠ some account.isDemo then
    .error { reasonCode := "demo_live_mismatch", retryable := false }
  else .ok ()

/-- What the driver checks of a verification, before the runtime may be called running. -/
def verifyChecks (requireLogin : Bool) (account : TradingAccount) (v : VerifyResult) :
    Except StepError Unit :=
  if !v.running then
    if v.initError.getD "" = "" then .error { reasonCode := "terminal_not_running" }
    else .error { reasonCode := "mt5_init_failed", detail := clip 200 (v.initError.getD "") }
  else if requireLogin then
    match resolveBrokerServer account with
    | .error reason => .error { reasonCode := reason, retryable := false }
    | .ok server => loginChecks account v server
  else .ok ()

section

variable {requireLogin : Bool} {account : TradingAccount} {v : VerifyResult} {server : String}

lemma of_loginChecks (hserver : resolveBrokerServer account = .ok server)
    (h : loginChecks account v server = .ok ()) : LoginMatches account v := by
  unfold loginChecks at h
  split_ifs at h with hlogged hlogin hname hdemo
  exact
    { loggedIn := by simpa using hlogged
      login := not_not.mp hlogin
      server := ⟨server, hserver, not_not.mp hname⟩
      isDemo := not_not.mp hdemo }

/-- **A verification that passes is of a running terminal, and where the login is required it is that
of the account.** -/
theorem of_verifyChecks (h : verifyChecks requireLogin account v = .ok ()) :
    v.running = true ∧ (requireLogin = true → LoginMatches account v) := by
  unfold verifyChecks at h
  split_ifs at h with hrunning hinit hrequire
  · refine ⟨by simpa using hrunning, fun _ => ?_⟩
    split at h
    · cases h
    next server hserver => exact of_loginChecks hserver h
  · exact ⟨by simpa using hrunning, fun hon => absurd hon hrequire⟩

end

/-! ### Remote steps -/

/-- How a request to the agent can fail. -/
inductive RemoteError where
  | step (e : StepError)
  | timeout
  | channel (reasonCode : String)
  | other (text : String)
  deriving DecidableEq, Repr

/-- The replies that say that the same operation still runs. -/
def reconcileBusyReasons : List String := ["runtime_busy"]

/-- The replies that settle nothing while an operation is awaited. -/
def reconcileContinueReasons : List String :=
  ["runtime_busy", "agent_busy", "agent_stopping", "transport_error", "bad_agent_response"]

/-- The refusals after which the slot may be corrupt. -/
def partialReasons : List String :=
  ["stage_copy_incomplete", "stage_copy_precheck_failed", "stage_copy_refused",
   "impl_integrity_mismatch", "path_escape", "reparse_escape", "reparse_escape_after_materialise",
   "reparse_escapes_namespace", "reparse_point_present", "reparse_point_in_tree",
   "image_outside_slot", "image_not_owned", "slot_integrity_mismatch", "audit_chain_corrupt",
   "unauthorised_namespace", "capability_violation", "occupancy_binding_mismatch"]

def channelError (rc reasonCode : String) : StepError :=
  if rc ∈ partialReasons then { reasonCode := rc, detail := "proven_partial", retryable := false }
  else { reasonCode := if rc = "" then reasonCode else rc, detail := "channel_error" }

/-- The replies to the probes of an operation that may still be running, as many as the budget has
time for. -/
def reconcile (reasonCode : String) :
    List (Except RemoteError VerifyResult) → Except StepError VerifyResult
  | [] => .error
      { reasonCode := "op_ambiguous_timeout", detail := "reconcile_budget_exhausted"
        retryable := false, ambiguous := true }
  | probe :: probes =>
    match probe with
    | .ok result => .ok result
    | .error .timeout => reconcile reasonCode probes
    | .error (.channel rc) =>
      if rc ∈ reconcileContinueReasons then reconcile reasonCode probes
      else .error (channelError rc reasonCode)
    | .error (.step e) => .error e
    | .error (.other text) => .error { reasonCode, detail := clip 2000 text }

/-- One step of the provisioner: the reply to the request, and to the probes if it is awaited. -/
def remoteStep (reasonCode : String) (first : Except RemoteError VerifyResult)
    (probes : List (Except RemoteError VerifyResult)) : Except StepError VerifyResult :=
  match first with
  | .ok result => .ok result
  | .error (.step e) => .error e
  | .error .timeout => reconcile reasonCode probes
  | .error (.channel rc) =>
    if rc ∈ reconcileBusyReasons then reconcile reasonCode probes
    else .error (channelError rc reasonCode)
  | .error (.other text) => .error { reasonCode, detail := clip 2000 text }

end TerminalProvisioning
end GuvFX
