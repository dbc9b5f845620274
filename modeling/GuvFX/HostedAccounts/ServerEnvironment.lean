/-
# The environment of a broker server

A hosted workspace is requested, and its identity may be declared later; both find or create the row of a
broker server, whose environment the account must have.  A verified catalogue lists the environments of
known servers.  Names are compared in three ways: the catalogue by a key, which ignores the case and the
white space inside; the rows by their upper case; a new row by the name as it stands.

The catalogue, the foldings of the case and the entitlements are fixed.  A transaction is seen by the
others when it commits; a lock is held on the user by a request, and on the workspace by a declaration.
-/
import GuvFX.HostedAccounts.Onboarding
import GuvFX.Lib.Locks
import GuvFX.Lib.Runs
import GuvFX.Lib.Text
import Mathlib.Data.Int.Order.Basic

namespace GuvFX
namespace HostedAccounts
namespace ServerEnvironment

open Runs

/-! ### Names and the catalogue -/

structure BrokerServerCatalogue where
  nameKey : String
  environment : Environment
  isVerified : Bool := true
  deriving DecidableEq, Repr

/-- What is fixed: how the program folds the case of a name and how the database does, and the
catalogue. -/
structure Setting where
  casefold : String → String
  upper : String → String
  catalogue : List BrokerServerCatalogue

/-- The words of a text; the letters of the word that has begun are kept in reverse. -/
def words : List Char → List Char → List (List Char)
  | begun, [] => if begun = [] then [] else [begun.reverse]
  | begun, c :: cs =>
    if Text.isSpace c then
      if begun = [] then words [] cs else begun.reverse :: words [] cs
    else words (c :: begun) cs

/-- A name without white space around it, and with single blanks inside. -/
def normaliseServerName (name : String) : String :=
  String.ofList ((words [] name.toList).intersperse [' ']).flatten

def serverNameKey (σ : Setting) (name : String) : String := σ.casefold (normaliseServerName name)

/-- The environment under which the catalogue lists a server. -/
def resolveVerifiedEnvironment (σ : Setting) (name : String) : Option Environment :=
  let key := serverNameKey σ name
  if key = "" then none
  else (σ.catalogue.find? fun entry => entry.nameKey = key && entry.isVerified).map
    BrokerServerCatalogue.environment

/-! ### Rows of servers -/

/-- The row of a name, as the database compares names; the order decides between several. -/
def findServer (σ : Setting) (servers : Table BrokerServer) (name : String) (order : ℕ) :
    Option (ℕ × BrokerServer) :=
  let found := servers.filter fun _ s => σ.upper s.serverName = σ.upper name
  found[order % found.length]?

/-- The row of exactly this name, which is created if there is none: the rows, the key, the row, and
whether it was created. -/
def getOrCreateServer (servers : Table BrokerServer) (name : String) (environment : Environment)
    (source : EnvironmentSource) : Table BrokerServer × (ℕ × BrokerServer) × Bool :=
  match servers.first fun _ s => s.serverName = name with
  | some row => (servers, row, false)
  | none =>
    let server : BrokerServer := ⟨name, environment, source⟩
    (servers.insert servers.fresh server, (servers.fresh, server), true)

structure LookUp where
  name : String
  verified : Option Environment
  found : Option (ℕ × BrokerServer)
  deriving DecidableEq, Repr

def lookUp (σ : Setting) (servers : Table BrokerServer) (name : String) (order : ℕ) : LookUp where
  name := name
  verified := resolveVerifiedEnvironment σ name
  found := findServer σ servers name order

/-- The server that an account is bound to, or why there is none.  The two callers give their own
reasons: for an account that the catalogue contradicts, and for one that a row contradicts. -/
def governedServer (mismatch : String) (disagreement : BrokerServer → String) (isDemo : Bool)
    (look : LookUp) (strict : Bool) (servers : Table BrokerServer) :
    Table BrokerServer × Except String ℕ :=
  let desired := desiredEnvironment isDemo
  match look.verified, look.found with
  | some verified, found =>
    if verified ≠ desired then (servers, .error mismatch)
    else
      let out := match found with
        | some row => (servers, row, false)
        | none => getOrCreateServer servers look.name verified .catalogue
      if out.2.1.2.environment ≠ verified then (out.1, .error "broker_server_metadata_inconsistent")
      else (out.1, .ok out.2.1.1)
  | none, some row =>
    if classificationError isDemo (some row.2) then (servers, .error (disagreement row.2))
    else (servers, .ok row.1)
  | none, none =>
    if strict then (servers, .error "broker_server_unverified")
    else
      let out := getOrCreateServer servers look.name desired .inferred
      if !out.2.2 ∧ classificationError isDemo (some out.2.1.2) then
        (out.1, .error (disagreement out.2.1.2))
      else (out.1, .ok out.2.1.1)

/-- The server of a request; only an operator's correction proves that the name is wrong. -/
def requestServer : Bool → LookUp → Bool → Table BrokerServer → Table BrokerServer × Except String ℕ :=
  governedServer "broker_server_environment_mismatch" fun server =>
    if server.environmentSource = .operator then "broker_server_environment_mismatch"
    else "broker_server_metadata_inconsistent"

def bindServer : Bool → LookUp → Bool → Table BrokerServer → Table BrokerServer × Except String ℕ :=
  governedServer "live_identity_forbidden" fun _ => "live_identity_forbidden"

/-! ### Calls -/

/-- What a step reads beyond the rows, at the moment it is taken. -/
structure Gates where
  /-- Why the user is not admitted to hosted workspaces. -/
  admission : Option String := none
  liveOnboardingEnabled : Bool := false
  liveMonitoringEnabled : Bool := false
  deferredIdentityBindEnabled : Bool := false
  catalogueStrict : Bool := false
  enforcementEnabled : Bool := false
  maxTradingAccounts : ℤ := 1
  /-- Which of several rows comes first. -/
  order : ℕ := 0

structure Result where
  ok : Bool
  reason : String
  workspace : Option ℕ := none
  created : Bool := false
  deriving DecidableEq, Repr

/-- A refusal. -/
def refuse (reason : String) : Result := ⟨false, reason, none, false⟩

/-- What a customer asks for. -/
inductive Kind
  | request (user : ℕ) (expectedLogin expectedServer brokerName : String) (isDemo : Bool)
  | bind (user workspace : ℕ) (expectedLogin expectedServer : String)
  deriving DecidableEq, Repr

inductive Phase
  | opening
  /-- In the transaction, about to look the server up; the account of a declaration is locked. -/
  | looking (isDemo : Bool)
  /-- In the transaction, about to write. -/
  | saving (isDemo : Bool) (look : Option LookUp)
  | done (result : Result)
  deriving DecidableEq, Repr

structure Call where
  kind : Kind
  phase : Phase := .opening
  deriving DecidableEq, Repr

/-- What is locked. -/
inductive Resource
  | user (pk : ℕ)
  | workspace (pk : ℕ)
  deriving DecidableEq, Repr

structure State where
  store : Store
  servers : Table BrokerServer
  locks : Locks Resource := Locks.free
  calls : ℕ → Option Call := fun _ => none

def maxLoginLen : ℕ := 64

def maxServerLen : ℕ := 160

def identityTaken (accounts : Table TradingAccount) (exclude : Option ℕ) (user : ℕ)
    (server : Option ℕ) (brokerName login : String) : Bool :=
  (accounts.first fun pk a => exclude ≠ some pk && a.user = user && a.accountNumber = login
    && a.disconnectedAt.isNone && a.brokerServer = server
    && (server.isSome || (brokerName ≠ "" && a.brokerName = brokerName))).isSome

def ownedWorkspaces (store : Store) (user : ℕ) : List (ℕ × TradingAccount) :=
  store.workspaces.rows.filterMap fun row =>
    ((store.accounts.get row.2.tradingAccount).filter fun a =>
      a.user = user && a.disconnectedAt.isNone).map fun a => (row.1, a)

/-- Whether an account has the identity that a request asks for. -/
def sameIdentity (σ : Setting) (servers : Table BrokerServer) (login server : String)
    (account : TradingAccount) : Bool :=
  account.accountNumber = login &&
    if server = "" then account.brokerServer.isNone
    else (account.brokerServer.bind servers.get).any fun s => σ.upper s.serverName = σ.upper server

/-- What a request finds of the user's own workspaces: its answer, if it has one already. -/
def existingWorkspace (σ : Setting) (gates : Gates) (s : State) (user : ℕ)
    (login server : String) (isDemo : Bool) : Option Result :=
  let owned := ownedWorkspaces s.store user
  let answer (found : ℕ × TradingAccount) : Result :=
    if found.2.isDemo ≠ isDemo then refuse "broker_server_environment_mismatch"
    else ⟨true, "exists", some found.1, false⟩
  if gates.enforcementEnabled then
    let found := owned.filter fun row => sameIdentity σ s.servers login server row.2
    match found[gates.order % found.length]? with
    | some row => some (answer row)
    | none =>
      let count := (s.store.accounts.filter fun _ a => a.user = user && a.disconnectedAt.isNone).length
      if gates.maxTradingAccounts ≤ count then some (refuse "broker_account_limit_reached") else none
  else (owned[gates.order % owned.length]?).map answer

/-- Why a declaration is refused, or what it answers to an identity that is bound already. -/
def bindAnswer (gates : Gates) (s : State) (user : ℕ) (login server : String)
    (ws : HostedMt5Workspace) (acct : TradingAccount) : Option Result :=
  if acct.user ≠ user then some (refuse "not_owner")
  else if acct.readinessProvider ≠ persistentWorkspace then some (refuse "not_hosted_workspace")
  else if !acct.isDemo ∧ !gates.liveMonitoringEnabled then some (refuse "live_identity_forbidden")
  else if ws.canonicalState ≠ .provisioning ∧ ws.canonicalState ≠ .waitingForLogin then
    some (refuse "identity_bind_not_allowed_in_state")
  else if Text.strip acct.accountNumber ≠ "" then
    let priorServer := ((acct.brokerServer.bind s.servers.get).map fun srv =>
      Text.strip srv.serverName).getD ""
    if Text.strip acct.accountNumber = login ∧ priorServer = server then
      some ⟨true, "already_bound_identical", none, false⟩
    else some (refuse "identity_already_bound")
  else none

/-- The first step of a call: the checks before the transaction, the lock, and the checks under it. -/
def openCall (σ : Setting) (k : ℕ) (s : State) (gates : Gates) : Kind → State × Phase
  | .request user expectedLogin expectedServer _ isDemo =>
    let login := Text.strip expectedLogin
    let server := Text.strip expectedServer
    match gates.admission with
    | some reason => (s, .done (refuse reason))
    | none =>
      if !isDemo ∧ !gates.liveOnboardingEnabled then (s, .done (refuse "live_onboarding_disabled"))
      else if login = "" ∧ !gates.deferredIdentityBindEnabled then
        (s, .done (refuse "expected_login_required"))
      else if maxLoginLen < login.length ∨ maxServerLen < server.length then
        (s, .done (refuse "expected_identity_invalid"))
      else if (s.locks (.user user)).isSome then (s, .opening)
      else
        match existingWorkspace σ gates s user login server isDemo with
        | some answer => (s, .done answer)
        | none => ({ s with locks := s.locks.take (.user user) k }, .looking isDemo)
  | .bind user workspace expectedLogin expectedServer =>
    let login := Text.strip expectedLogin
    let server := Text.strip expectedServer
    if login = "" then (s, .done (refuse "expected_login_required"))
    else if maxLoginLen < login.length ∨ maxServerLen < server.length then
      (s, .done (refuse "expected_identity_invalid"))
    else if (s.locks (.workspace workspace)).isSome then (s, .opening)
    else
      match s.store.workspace workspace with
      | none => (s, .done (refuse "does_not_exist"))
      | some (ws, acct) =>
        match bindAnswer gates s user login server ws acct with
        | some answer => (s, .done answer)
        | none => ({ s with locks := s.locks.take (.workspace workspace) k }, .looking acct.isDemo)

def Kind.serverName : Kind → String
  | .request _ _ expectedServer _ _ | .bind _ _ _ expectedServer => Text.strip expectedServer

/-- The server that a call is to write: none without a name. -/
def resolveServer (kind : Kind) (isDemo : Bool) (look : Option LookUp) (strict : Bool)
    (servers : Table BrokerServer) : Table BrokerServer × Except String (Option ℕ) :=
  match look with
  | none => (servers, .ok none)
  | some look =>
    let out := match kind with
      | .request .. => requestServer isDemo look strict servers
      | .bind .. => bindServer isDemo look strict servers
    (out.1, out.2.map some)

def intentAccount (user : ℕ) (login brokerName : String) (server : Option ℕ) (isDemo : Bool) :
    TradingAccount where
  user := user
  accountNumber := login
  brokerName := if Text.strip brokerName = "" then "Hosted Workspace" else Text.strip brokerName
  brokerServer := server
  isDemo := isDemo
  isActive := false
  readinessProvider := persistentWorkspace

def bindIdentity (login : String) (server : Option ℕ) (acct : TradingAccount) : TradingAccount :=
  { acct with
    accountNumber := login
    brokerServer := server }

/-- The last step of a call: the server is found or created, the account is written, and the transaction
commits. -/
def saveCall (k : ℕ) (s : State) (gates : Gates) (kind : Kind) (isDemo : Bool) (look : Option LookUp) :
    State × Phase :=
  let free := { s with locks := s.locks.release k }
  let out := resolveServer kind isDemo look gates.catalogueStrict s.servers
  match out.2 with
  | .error reason => ({ free with servers := out.1 }, .done (refuse reason))
  | .ok server =>
    match kind with
    | .request user expectedLogin _ brokerName isDemo =>
      let account := intentAccount user (Text.strip expectedLogin) brokerName server isDemo
      if identityTaken s.store.accounts none user server account.brokerName account.accountNumber then
        -- the transaction rolls back
        (free, .done (refuse "integrity_error"))
      else
        let pk := s.store.accounts.fresh
        let ws := s.store.workspaces.fresh
        let store : Store :=
          ⟨s.store.accounts.insert pk account, s.store.workspaces.insert ws { tradingAccount := pk }⟩
        ({ free with
          store := store
          servers := out.1 }, .done ⟨true, "created", some ws, true⟩)
    | .bind _ workspace expectedLogin _ =>
      match s.store.workspace workspace with
      | none => (free, .done (refuse "does_not_exist"))
      | some (ws, acct) =>
        let login := Text.strip expectedLogin
        if identityTaken s.store.accounts (some ws.tradingAccount) acct.user server acct.brokerName
            login then
          -- only the nested transaction rolls back
          ({ free with servers := out.1 }, .done (refuse "expected_identity_invalid"))
        else
          let store := s.store.updateAccount ws.tradingAccount (bindIdentity login server)
          ({ free with
            store := store
            servers := out.1 }, .done ⟨true, "bound", none, false⟩)

def callStep (σ : Setting) (k : ℕ) (s : State) (call : Call) (gates : Gates) : State × Phase :=
  match call.phase with
  | .opening => openCall σ k s gates call.kind
  | .looking isDemo =>
    let name := call.kind.serverName
    let look := if name = "" then none else some (lookUp σ s.servers name gates.order)
    (s, .saving isDemo look)
  | .saving isDemo look => saveCall k s gates call.kind isDemo look
  | .done result => (s, .done result)

/-- What can happen next. -/
inductive Action
  | begin (k : ℕ) (kind : Kind)
  /-- The next step of a call. -/
  | go (k : ℕ) (gates : Gates)
  | die (k : ℕ)

def step (σ : Setting) (s : State) (a : Action) : State :=
  match a with
  | .begin k kind =>
    match s.calls k with
    | some _ => s
    | none => { s with calls := Function.update s.calls k (some { kind := kind }) }
  | .go k gates =>
    match s.calls k with
    | none => s
    | some call =>
      let out := callStep σ k s call gates
      { out.1 with calls := Function.update s.calls k (some { call with phase := out.2 }) }
  | .die k =>
    { s with
      locks := s.locks.release k
      calls := Function.update s.calls k none }

/-- Before any call. -/
def start (store : Store) (servers : Table BrokerServer) : State where
  store := store
  servers := servers

/-! ### The property -/

/-- Rows of one key have one environment, the rows of `servers` have kept theirs, and an account is bound
to a server of its own environment, which the catalogue does not list with the other one. -/
structure OneEnvironment (σ : Setting) (servers : Table BrokerServer) (s : State) : Prop where
  key : ∀ pk pk' srv srv', s.servers.get pk = some srv → s.servers.get pk' = some srv' →
    serverNameKey σ srv.serverName = serverNameKey σ srv'.serverName →
    srv.environment = srv'.environment
  kept : ∀ pk srv, servers.get pk = some srv →
    ∃ srv', s.servers.get pk = some srv' ∧ srv'.environment = srv.environment
  account : ∀ pk a server, s.store.accounts.get pk = some a → a.brokerServer = some server →
    ∃ srv, s.servers.get server = some srv ∧ srv.environment = desiredEnvironment a.isDemo ∧
      ∀ env, resolveVerifiedEnvironment σ srv.serverName = some env → env = srv.environment

/-- Whether a look-up that has found no row ends with a new one. -/
def creates (desired : Environment) (look : LookUp) (strict : Bool) (servers : Table BrokerServer) :
    Bool :=
  look.found.isNone && (servers.first fun _ s => s.serverName = look.name).isNone
    && (look.verified = some desired || (look.verified.isNone && !strict))

/-- The names that a step takes for one have one key: a row that was found has the key of the name that
was looked up, unless the catalogue has nothing against it; and when a row is created, no row of its key
is stored with the other environment. -/
def sameKey (σ : Setting) (s : State) (a : Action) : Bool :=
  match a with
  | .go k gates =>
    match s.calls k with
    | some ⟨_, .saving isDemo (some look)⟩ =>
      let desired := desiredEnvironment isDemo
      let listed (srv : BrokerServer) : Bool :=
        (resolveVerifiedEnvironment σ srv.serverName).any fun env => env ≠ srv.environment
      (look.found.all fun row =>
        row.2.environment ≠ desired || (look.verified.any fun env => env ≠ desired) ||
          serverNameKey σ row.2.serverName = serverNameKey σ look.name || !listed row.2) &&
      (!creates desired look gates.catalogueStrict s.servers ||
        s.servers.rows.all fun row => row.2.environment = desired ||
          serverNameKey σ row.2.serverName ≠ serverNameKey σ look.name)
    | _ => true
  | _ => true

end ServerEnvironment
end HostedAccounts
end GuvFX
