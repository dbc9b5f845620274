/-
# Activation

An account is activated by a request to start trading, which may be a managed start, and by a
confirmation.  An activation that keeps to the limit of its user is a transaction under the lock of the
user: it counts, or stops the other accounts, and then activates.  The confirmation, and the path for
accounts on a shared instance, take no lock and count nothing.

The calls take their steps in any order.  A write to a row that an open transaction has changed waits in
the database; here it may also be taken before, which only adds runs.
-/
import GuvFX.HostedAccounts.Onboarding
import GuvFX.Lib.Runs
import Mathlib.Logic.Function.Basic
import Mathlib.Data.Int.Order.Basic

namespace GuvFX
namespace HostedAccounts
namespace Activation

open Runs

/-! ### Limits -/

inductive AccountMode
  | standard | concurrent
  deriving DecidableEq, Repr

structure Entitlements where
  accountMode : AccountMode := .standard
  concurrentBrokerAccountLimit : ℤ := 1
  deriving DecidableEq, Repr

/-- How many accounts may be active at a time. -/
def effectiveConcurrentLimit (ent : Entitlements) : ℤ :=
  if ent.accountMode = .concurrent then ent.concurrentBrokerAccountLimit else 1

def activeAccountCount (accounts : Table TradingAccount) (user : ℕ) (exclude : Option ℕ) : ℕ :=
  (accounts.filter fun pk a =>
    a.user = user && a.isActive && a.disconnectedAt.isNone && exclude ≠ some pk).length

/-- Why another account cannot be activated. -/
def checkCanActivate (accounts : Table TradingAccount) (ent : Entitlements) (user : ℕ)
    (exclude : Option ℕ) : Option String :=
  let limit := effectiveConcurrentLimit ent
  if limit ≤ activeAccountCount accounts user exclude then
    some s!"Concurrent active-account limit reached (maximum {limit}). Deactivate another account before activating this one."
  else none

structure Users where
  enforcementEnabled : ℕ → Bool
  entitlements : ℕ → Entitlements

/-! ### The preconditions of a managed start -/

/-- What a step reads beyond the rows, at the moment it is taken. -/
structure Gates where
  managedStartTradingEnabled : Bool := false
  managedStartAuthorizesExecution : Bool := false
  accountRuntimeReady : Bool := true
  /-- Of each active strategy of the account, whether its size is right. -/
  activeAssignments : List Bool := [true]
  /-- Why the terminal is not logged in to the account. -/
  validationError : Option String := none
  /-- Why the user is not admitted to hosted workspaces. -/
  admission : Option String := none
  now : ℤ

def hedging : ℤ := 2

def runtimeReadyForStart (gates : Gates) (account : TradingAccount) (ws : Option HostedMt5Workspace) :
    Option String :=
  if account.disconnectedAt.isSome then some "broker_not_connected"
  else if account.readinessProvider = persistentWorkspace ∧ account.mt5Instance = none then
    match ws with
    | none => some "workspace_missing"
    | some ws =>
      if ws.projConnected ≠ some true then some "broker_not_connected"
      else if ws.projAccountMatch ≠ some true then some "account_mismatch"
      else if !observationFresh ws gates.now then some "observation_stale"
      else none
  else if gates.accountRuntimeReady then none
  else some "terminal_not_ready"

def managedStartRefused (gates : Gates) (account : TradingAccount) (ws : HostedMt5Workspace) :
    Option String :=
  if ws.projMarginMode ≠ some hedging then some "margin_mode"
  else if gates.activeAssignments = [] then some "no_strategy"
  else if !gates.activeAssignments.all id then some "invalid_sizing"
  else if gates.managedStartAuthorizesExecution then none
  else if account.workspaceConfirmedAt.isNone then some "not_confirmed"
  else if ws.executionAuthorizedAt.isNone then some "not_authorized"
  else none

/-! ### Calls -/

structure Result where
  ok : Bool
  detail : String := ""
  deriving DecidableEq, Repr

/-- What a managed start takes into its transaction: the workspace and the copy of it. -/
structure Managed where
  workspace : ℕ
  copy : HostedMt5Workspace
  authorizes : Bool
  deriving DecidableEq, Repr

/-- The operations that activate an account. -/
inductive Kind
  /-- Start or stop trading, with the copy of the account that the request has fetched. -/
  | setActive (pk : ℕ) (account : TradingAccount) (isActive : Bool)
  | confirm (user workspace : ℕ)
  deriving DecidableEq, Repr

inductive Phase
  | opening
  /-- About to open the transaction of an activation, which a managed start extends. -/
  | starting (managed : Option Managed)
  /-- About to write, under the lock if the limit is enforced. -/
  | committing (managed : Option Managed)
  | done (result : Result)
  deriving DecidableEq, Repr

structure Call where
  kind : Kind
  phase : Phase := .opening
  deriving DecidableEq, Repr

/-- The lock of a user: the call that holds it, the account it activates, and those it has stopped. -/
structure Lock where
  call : ℕ
  account : ℕ
  stopped : List ℕ
  deriving DecidableEq, Repr

structure State where
  store : Store
  locks : ℕ → Option Lock := fun _ => none
  calls : ℕ → Option Call := fun _ => none

def setIsActive (isActive : Bool) (account : TradingAccount) : TradingAccount :=
  { account with isActive := isActive }

def stopAccounts (store : Store) (pks : List ℕ) : Store :=
  pks.foldl (fun store pk => store.updateAccount pk (setIsActive false)) store

def siblings (accounts : Table TradingAccount) (user pk : ℕ) : List ℕ :=
  (accounts.filter fun j a =>
    a.user = user && a.isActive && a.disconnectedAt.isNone && j ≠ pk).map Prod.fst

def onInstance (accounts : Table TradingAccount) (user inst pk : ℕ) : List ℕ :=
  (accounts.filter fun j a => a.user = user && a.mt5Instance = some inst && j ≠ pk).map Prod.fst

def confirmStart (gates : Gates) (account : TradingAccount) (managed : Managed) (store : Store) :
    Except String Store :=
  if account.workspaceConfirmedAt.isSome then .ok store
  else
    let r := confirmBrokerAccount gates.admission account.user managed.workspace gates.now store
    if r.2.ok then .ok r.1 else .error "not_confirmed"

def authorizeStart (gates : Gates) (account : TradingAccount) (managed : Managed) (store : Store) :
    Except String Store :=
  if managed.copy.executionAuthorizedAt.isSome then .ok store
  else
    let r := authorizeWorkspaceExecution gates.admission account.user managed.workspace true gates.now
      store
    if r.2.ok then .ok r.1 else .error "not_authorized"

/-- The rows after the transaction of an activation. -/
def activateWithAuthorization (gates : Gates) (pk : ℕ) (account : TradingAccount)
    (managed : Option Managed) (stopped : List ℕ) (store : Store) : Except String Store :=
  let store := stopAccounts store stopped
  let authorized : Except String Store :=
    match managed with
    | none => .ok store
    | some managed =>
      if !managed.authorizes then .ok store
      else (confirmStart gates account managed store).bind (authorizeStart gates account managed)
  authorized.map fun store => store.updateAccount pk (setIsActive true)

/-- Open the transaction of an activation: with enforcement, take the lock of the user, and count or
stop the others. -/
def openActivation (users : Users) (k pk : ℕ) (account : TradingAccount) (managed : Option Managed)
    (s : State) : State × Phase :=
  if !users.enforcementEnabled account.user then (s, .committing managed)
  else if (s.locks account.user).isSome then (s, .starting managed)
  else
    let ent := users.entitlements account.user
    let take (stopped : List ℕ) : State × Phase :=
      ({ s with locks := Function.update s.locks account.user (some ⟨k, pk, stopped⟩) },
        .committing managed)
    match ent.accountMode with
    | .concurrent =>
      match checkCanActivate s.store.accounts ent account.user (some pk) with
      | some detail => (s, .done ⟨false, detail⟩)
      | none => take []
    | .standard => take (siblings s.store.accounts account.user pk)

/-- Write what the transaction of an activation has to write, and give the lock up. -/
def commitActivation (gates : Gates) (pk : ℕ) (account : TradingAccount) (managed : Option Managed)
    (s : State) : State × Phase :=
  let stopped := ((s.locks account.user).map Lock.stopped).getD []
  let locks := Function.update s.locks account.user none
  match activateWithAuthorization gates pk account managed stopped s.store with
  | .error reason => ({ s with locks := locks }, .done ⟨false, reason⟩)
  | .ok store =>
    ({ s with
      store := store
      locks := locks }, .done ⟨true, ""⟩)

def setActiveOnInstance (gates : Gates) (pk : ℕ) (account : TradingAccount) (inst : ℕ) (isActive : Bool)
    (s : State) : State × Phase :=
  let others := onInstance s.store.accounts account.user inst pk
  if isActive then
    match gates.validationError with
    | some detail => (s, .done ⟨false, detail⟩)
    | none =>
      let store := (stopAccounts s.store others).updateAccount pk (setIsActive true)
      ({ s with store := store }, .done ⟨true, ""⟩)
  else
    let active := (s.store.accounts.filter fun _ a =>
      a.user = account.user && a.mt5Instance = some inst && a.isActive).length
    if account.isActive && active ≤ 1 then
      (s, .done ⟨false, "At least one trading account must remain active for this trading terminal."⟩)
    else
      let store := s.store.updateAccount pk (setIsActive false)
      ({ s with store := store }, .done ⟨true, ""⟩)

def startTrading (gates : Gates) (pk : ℕ) (account : TradingAccount) (s : State) : State × Phase :=
  if gates.managedStartTradingEnabled then
    let ws := s.store.workspaces.first fun _ ws => ws.tradingAccount = pk
    if !account.isDemo then (s, .done ⟨false, "demo_only"⟩)
    else
      match runtimeReadyForStart gates account (ws.map Prod.snd), ws with
      | some reason, _ => (s, .done ⟨false, reason⟩)
      | none, none => (s, .done ⟨false, "workspace_missing"⟩)
      | none, some (workspace, copy) =>
        match managedStartRefused gates account copy with
        | some reason => (s, .done ⟨false, reason⟩)
        | none => (s, .starting (some ⟨workspace, copy, gates.managedStartAuthorizesExecution⟩))
  else if !gates.accountRuntimeReady then (s, .done ⟨false, "terminal_not_ready"⟩)
  else (s, .starting none)

def callStep (users : Users) (k : ℕ) (s : State) (call : Call) (gates : Gates) : State × Phase :=
  match call.kind, call.phase with
  | .confirm user workspace, .opening =>
    let r := confirmBrokerAccount gates.admission user workspace gates.now s.store
    ({ s with store := r.1 }, .done ⟨r.2.ok, r.2.reason⟩)
  | .setActive pk account isActive, .opening =>
    if isActive ∧ account.disconnectedAt.isSome then
      (s, .done ⟨false, "This account has been removed. Add it again to trade."⟩)
    else
      match account.mt5Instance with
      | some inst => setActiveOnInstance gates pk account inst isActive s
      | none =>
        if isActive then startTrading gates pk account s
        else
          let store := s.store.updateAccount pk (setIsActive false)
          ({ s with store := store }, .done ⟨true, "STOPPED"⟩)
  | .setActive pk account _, .starting managed => openActivation users k pk account managed s
  | .setActive pk account _, .committing managed => commitActivation gates pk account managed s
  | _, phase => (s, phase)

/-! ### Runs -/

inductive Request
  | setActive (pk : ℕ) (isActive : Bool)
  | confirm (user workspace : ℕ)

/-- The operation of a request; the account is fetched first. -/
def Request.kind (request : Request) (store : Store) : Option Kind :=
  match request with
  | .setActive pk isActive => (store.accounts.get pk).map fun account => .setActive pk account isActive
  | .confirm user workspace => some (.confirm user workspace)

/-- What can happen next. -/
inductive Action
  | begin (k : ℕ) (request : Request)
  /-- The next step of a call. -/
  | go (k : ℕ) (gates : Gates)
  | die (k : ℕ)
  /-- Other writers change an account, but do not activate it, bring it back or give it away. -/
  | otherAccount (pk : ℕ) (account : TradingAccount)
  | otherWorkspace (pk : ℕ) (ws : HostedMt5Workspace)

def changedAccount (account old : TradingAccount) : TradingAccount :=
  { account with
    user := old.user
    isActive := old.isActive && account.isActive
    disconnectedAt := old.disconnectedAt.or account.disconnectedAt }

def changedWorkspace (ws old : HostedMt5Workspace) : HostedMt5Workspace :=
  { ws with tradingAccount := old.tradingAccount }

def released (locks : ℕ → Option Lock) (k : ℕ) : ℕ → Option Lock :=
  fun user => (locks user).filter fun lock => lock.call ≠ k

def step (users : Users) (s : State) (a : Action) : State :=
  match a with
  | .begin k request =>
    match s.calls k, request.kind s.store with
    | none, some kind => { s with calls := Function.update s.calls k (some { kind := kind }) }
    | _, _ => s
  | .go k gates =>
    match s.calls k with
    | none => s
    | some call =>
      let out := callStep users k s call gates
      { out.1 with calls := Function.update s.calls k (some { call with phase := out.2 }) }
  | .die k =>
    { s with
      locks := released s.locks k
      calls := Function.update s.calls k none }
  | .otherAccount pk account => { s with store := s.store.updateAccount pk (changedAccount account) }
  | .otherWorkspace pk ws => { s with store := s.store.updateWorkspace pk (changedWorkspace ws) }

/-- Before any call. -/
def start (store : Store) : State where
  store := store

/-! ### The property -/

/-- No step of a run raises the number of active accounts of a user above the limit. -/
def NeverRises (users : Users) (user : ℕ) (s : State) (as : List Action) : Prop :=
  ∀ bs a, bs ++ [a] <+: as →
    (activeAccountCount (run (step users) s (bs ++ [a])).store.accounts user none : ℤ) ≤
      max (activeAccountCount (run (step users) s bs).store.accounts user none : ℤ)
        (effectiveConcurrentLimit (users.entitlements user))

/-- Whether an account is active once the activation under a lock has been written. -/
def settled (lock : Option Lock) (pk : ℕ) (isActive : Bool) : Bool :=
  match lock with
  | none => isActive
  | some lock => pk = lock.account || (isActive && !lock.stopped.contains pk)

def counted (lock : Option Lock) (user pk : ℕ) (a : TradingAccount) : Bool :=
  a.user = user && a.disconnectedAt.isNone && settled lock pk a.isActive

def settledCount (lock : Option Lock) (user : ℕ) (store : Store) : ℕ :=
  (store.accounts.filter (counted lock user)).length

/-- How many other accounts will count beside one that replaces those on an instance. -/
def besides (lock : Option Lock) (user pk : ℕ) (inst : Option ℕ) (store : Store) : ℕ :=
  (store.accounts.filter fun j a =>
    j ≠ pk && counted lock user j { a with isActive := a.isActive && (inst.isNone || a.mt5Instance ≠ inst) }).length

/-- The account that a step activates without counting, and the instance on which it replaces others. -/
def unguarded (s : State) (a : Action) : Option (ℕ × Option ℕ) :=
  match a with
  | .go k gates =>
    match s.calls k with
    | some ⟨.confirm user workspace, .opening⟩ =>
      (confirms gates.admission user workspace s.store).map fun pk => (pk, none)
    | some ⟨.setActive pk account true, .opening⟩ =>
      if account.disconnectedAt.isNone && account.mt5Instance.isSome && gates.validationError.isNone then
        some (pk, account.mt5Instance)
      else none
    | _ => none
  | _ => none

/-- A step that activates an account without counting leaves room: with what is stored, and with what
the activation that holds the lock is about to write. -/
def leavesRoom (users : Users) (s : State) (a : Action) : Bool :=
  match unguarded s a with
  | none => true
  | some (pk, inst) =>
    (s.store.accounts.get pk).all fun account =>
      !users.enforcementEnabled account.user || account.isActive || account.disconnectedAt.isSome ||
        [none, s.locks account.user].all fun lock =>
          besides lock account.user pk inst s.store < effectiveConcurrentLimit (users.entitlements account.user)

end Activation
end HostedAccounts
end GuvFX
