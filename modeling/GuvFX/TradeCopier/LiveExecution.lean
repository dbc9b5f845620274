/-
# The admission of live orders

A live order is copied only under an authorization that a human has granted for one exact pair of
accounts.  `admitOpenLive` lists the gates of such an order with the reasons of their refusals, in
the order of the source; `createLiveOpenJob` is what happens once the row of the authorization is
locked: some of the gates are evaluated again on that row, the job is made, and one unit of the
allowance is consumed.
-/
import GuvFX.Lib.Decimal
import GuvFX.Lib.Latest
import GuvFX.TradeCopier.Consumer
import GuvFX.TradeCopier.Follower

namespace GuvFX
namespace LiveExecution

open Checks Flags Follower Text
open Consumer (JobType RequestedOp ReplicationStatus)
open Diff (EventType hasLevel)

/-! ### Records -/

inductive AuthorizationStatus where
  | active
  | consumed
  | revoked
  deriving DecidableEq, Repr

structure CopierLiveAuthorization where
  userId : ℕ
  masterAccountId : ℕ
  followerAccountId : ℕ
  masterLogin : String
  masterServer : String
  masterEnvironment : Environment
  followerLogin : String
  followerServer : String
  followerEnvironment : Environment
  sourceSymbol : String
  followerSymbol : String
  maxVolume : ℚ
  maxConcurrentPositions : ℕ
  maxOrders : ℕ
  ordersConsumed : ℕ := 0
  validFrom : Time
  expiresAt : Time
  watermarkAt : Time
  watermarkEventSequence : ℕ
  status : AuthorizationStatus := .active
  revokedAt : Option Time := none
  createdAt : Time
  deriving DecidableEq, Repr

/-- An event of a master; a master is named by its trading account, which it owns alone. -/
structure MasterEvent where
  masterAccountId : ℕ
  sequence : ℕ
  eventType : EventType
  positionTicket : ℤ
  symbol : String
  side : String
  volumeAfter : ℚ
  volumeDelta : ℚ
  observedAt : Time
  deriving DecidableEq, Repr

structure MasterPosition where
  side : String
  priceOpen : Option ℚ
  sl : Option ℚ
  tp : Option ℚ
  deriving DecidableEq, Repr

structure CopierFollower where
  masterAccountId : ℕ
  followerAccountId : ℕ
  enabled : Bool
  sizing : FollowerSizing
  deriving DecidableEq, Repr

structure CopierReplication where
  masterEventId : ℕ
  followerId : ℕ
  requestedOp : RequestedOp
  status : ReplicationStatus
  targetVolume : Option ℚ
  followerSymbol : String
  translatedSl : Option ℚ
  translatedTp : Option ℚ
  sltpTranslationOk : Bool
  executionJobId : Option ℕ
  deriving DecidableEq, Repr

inductive ExecutionMode where
  | live
  | demo
  | shadow
  deriving DecidableEq, Repr

structure Payload where
  symbol : String
  providerSymbol : String
  side : String
  lots : ℚ
  slPrice : Option ℚ
  tpPrice : Option ℚ
  isDemo : Bool
  executionMode : ExecutionMode
  comment : String
  signalSource : String := "copier"
  maxLot : Option ℚ
  copierReplicationId : ℕ
  copierLiveAuthorizationId : Option ℕ := none
  requireIdentityPin : Bool := false
  expectedLogin : String := ""
  expectedServer : String := ""
  expectedEnvironment : Option Environment := none
  deriving DecidableEq, Repr

structure ExecutionJob where
  accountId : ℕ
  jobType : JobType
  terminalNodeId : Option ℕ
  payload : Payload
  hostedIdempotencyKey : String
  deriving DecidableEq, Repr

/-- The rows that the live path reads and that change while it runs. -/
structure Db where
  events : Table MasterEvent
  followers : Table CopierFollower
  replications : Table CopierReplication
  authorizations : Table CopierLiveAuthorization
  jobs : Table ExecutionJob

/-- The accounts and what is fixed about them. -/
structure World where
  accounts : ℕ → TradingAccount
  isMaster : ℕ → Bool
  symbolMaps : List SymbolMap
  masterPosition : ℕ → Option MasterPosition

/-- What the live path reads and never writes: flags, clock, switches and broker facts. -/
structure Env where
  flags : Flags
  /-- `HOSTED_LIVE_EXECUTION_ENABLED` -/
  hostedLiveExecutionEnabled : Bool
  now : Time
  killSwitchEngaged : Bool
  instruments : ℕ → String → Option BrokerInstrument
  brokerRuntimePaused : ℕ → Bool
  /-- The verdict of the strategy authorization on an account, which is no part of the copier. -/
  liveExecutionPermitted : ℕ → Bool

/-! ### Authorizations -/

/-- A float comparison of volumes allows this much. -/
def volEps : ℚ := 1 / 1000000000

/-- An open event that is older is not produced. -/
def freshnessSeconds : Time := 3600

def newest (rows : List (ℕ × CopierLiveAuthorization)) : Option (ℕ × CopierLiveAuthorization) :=
  Latest.latest (fun e => e.2.createdAt) none rows

def activeAuthorizationFor (db : Db) (masterAccountId followerAccountId : ℕ) :
    Option (ℕ × CopierLiveAuthorization) :=
  newest (db.authorizations.filter fun _ authz =>
    authz.masterAccountId = masterAccountId ∧ authz.followerAccountId = followerAccountId ∧
      authz.status = .active)

/-- The login, the server and the environment of an account; an environment that cannot be
resolved is `none` and equals nothing. -/
def currentIdentity (acct : TradingAccount) : String × String × Option Environment :=
  (strip acct.accountNumber, strip ((acct.brokerServer.map (·.serverName)).getD ""),
    (accountEnvironment acct).toOption)

def identitiesMatch (authz : CopierLiveAuthorization) (macct facct : TradingAccount) :
    List (Bool × String) :=
  let (ml, ms, me) := currentIdentity macct
  let (fl, fs, fe) := currentIdentity facct
  [(ml ≠ "" ∧ fl ≠ "", "identity_unpinned"),
   (authz.masterLogin = ml ∧ authz.masterServer = ms ∧ some authz.masterEnvironment = me,
    "master_identity_drift"),
   (authz.followerLogin = fl ∧ authz.followerServer = fs ∧ some authz.followerEnvironment = fe,
    "follower_identity_drift")]

def authorizationWindowOk (authz : CopierLiveAuthorization) (now : Time) : List (Bool × String) :=
  [(authz.status = .active ∧ authz.revokedAt = none, "authorization_not_active"),
   (authz.validFrom ≤ now, "authorization_not_yet_valid"),
   (now < authz.expiresAt, "authorization_expired"),
   (authz.ordersConsumed < authz.maxOrders, "order_allowance_exhausted")]

def isOpenLive (db : Db) (followerId : ℕ) (rep : CopierReplication) : Bool :=
  rep.followerId = followerId ∧ rep.requestedOp = .open_ ∧
    (rep.status = .executionRequested ∨ rep.status = .executionVerified) ∧
    rep.executionJobId.any fun j =>
      (db.jobs.get j).any fun job => job.payload.executionMode = .live

def openLiveCopierCount (db : Db) (followerId : ℕ) : ℕ :=
  (db.replications.filter fun _ rep => isOpenLive db followerId rep).length

/-- The runtime boundary as the copier's authorizations decide it. -/
def copierLiveExecutionAuthorized (w : World) (env : Env) (db : Db) (accountId : ℕ) : Bool :=
  let (login, server, _) := currentIdentity (w.accounts accountId)
  copierLiveExecuteEnabled env.flags && env.hostedLiveExecutionEnabled && !env.killSwitchEngaged &&
    (newest (db.authorizations.filter fun _ authz =>
        authz.followerAccountId = accountId ∧ authz.status = .active ∧ authz.revokedAt = none ∧
          authz.validFrom ≤ env.now ∧ env.now < authz.expiresAt)).any fun e =>
      e.2.ordersConsumed < e.2.maxOrders ∧ login ≠ "" ∧ strip e.2.followerLogin = login ∧
        strip e.2.followerServer = server

def allowLiveForAccount (w : World) (env : Env) (db : Db) (accountId : ℕ) : Bool :=
  isLiveEnvironment (w.accounts accountId) &&
    (env.liveExecutionPermitted accountId || copierLiveExecutionAuthorized w env db accountId)

/-! ### Admission -/

def supersededByClose (db : Db) (event : MasterEvent) : Bool :=
  (db.events.first fun _ ev =>
    ev.masterAccountId = event.masterAccountId ∧ ev.positionTicket = event.positionTicket ∧
      ev.eventType = .fullClose ∧ event.sequence < ev.sequence).isSome

/-- Complete protection on the right side of the entry. -/
def protectionOk (snap : Option MasterPosition) : List (Bool × String) :=
  let entry := snap.bind (·.priceOpen)
  let sl := snap.bind (·.sl)
  let tp := snap.bind (·.tp)
  let side := (snap.map (·.side)).getD ""
  let ascending (a b c : Option ℚ) : Bool := a.getD 0 < b.getD 0 ∧ b.getD 0 < c.getD 0
  [(hasLevel entry, "master_entry_unavailable"),
   (hasLevel sl && hasLevel tp, "incomplete_protection"),
   ((side ≠ "BUY" ∨ ascending sl entry tp) ∧ (side ≠ "SELL" ∨ ascending tp entry sl),
    "protection_not_directional")]

/-- The volume of the copy, from the master's volume and the present constraints. -/
def freshOpenSize (event : MasterEvent) (follower : CopierFollower)
    (constraints : BrokerConstraints) : SizingResult :=
  let masterVolume := if event.eventType = .open_ then event.volumeAfter else event.volumeDelta
  computeFollowerVolume (some masterVolume) follower.sizing constraints

/-- The volume is sized, not clamped, positive, and within the authorized maximum. -/
def sizeChecks (sr : SizingResult) (authz : CopierLiveAuthorization) : List (Bool × String) :=
  [(sr.ok, "fresh_size:" ++ sr.detail),
   (sr.detail ≠ "clamped_to_max", "volume_would_be_clamped"),
   (sr.volume.any fun v => 0 < v, "non_positive_volume"),
   (sr.volume.any fun v => v ≤ authz.maxVolume + volEps, "volume_exceeds_authorization")]

/-- The largest lot that the bridge may place. -/
def maxLot (constraints : BrokerConstraints) (follower : CopierFollower) : Option ℚ :=
  match caps follower.sizing constraints with
  | [] => none
  | c :: cs => some (cs.foldl min c)

/-- What the producers of open orders ask of a replication. -/
def producible (rep : CopierReplication) (follower : CopierFollower) : List (Bool × String) :=
  [(rep.executionJobId = none, "already_produced"),
   (rep.status = .shadowRecorded, "not_shadow_intent"),
   (rep.requestedOp = .open_, "op_not_producible"),
   (follower.enabled, "follower_disabled")]

/-- The gates of a live open order that look at its authorization, or come after one that does. -/
def authorizationChecks (w : World) (env : Env) (db : Db) (authz : CopierLiveAuthorization)
    (rep : CopierReplication) (followerId : ℕ) (follower : CopierFollower) (event : MasterEvent) :
    List (Bool × String) :=
  let macct := w.accounts follower.masterAccountId
  let facct := w.accounts follower.followerAccountId
  let sym := resolveFollowerSymbol w.symbolMaps macct event.symbol facct
  let instrument := env.instruments follower.followerAccountId authz.followerSymbol
  let constraints := brokerConstraints instrument
  let pair : List (Bool × String) :=
    [(authz.userId = facct.userId ∧ facct.userId = macct.userId, "user_mismatch"),
     (authz.masterAccountId = follower.masterAccountId, "master_account_mismatch"),
     (authz.followerAccountId = follower.followerAccountId, "follower_account_mismatch")]
  let symbols : List (Bool × String) :=
    [(event.masterAccountId = follower.masterAccountId, "event_master_mismatch"),
     (event.symbol = authz.sourceSymbol, "source_symbol_mismatch"),
     (sym.ok ∧ sym.followerSymbol = authz.followerSymbol, "symbol_map_unverified_or_changed"),
     (rep.followerSymbol = authz.followerSymbol, "intent_follower_symbol_mismatch"),
     (facct.isActive, "account_inactive"),
     (instrument.any (·.enabled), "instrument_not_ready"),
     (constraints.authoritative, "constraints_not_authoritative")]
  let watermark : List (Bool × String) :=
    [(authz.watermarkEventSequence < event.sequence, "event_before_watermark_sequence"),
     (authz.watermarkAt < event.observedAt, "event_before_watermark_time"),
     (!supersededByClose db event, "open_superseded_by_close"),
     (env.now - freshnessSeconds ≤ event.observedAt, "stale_open_outside_window")]
  let boundary : List (Bool × String) :=
    [(openLiveCopierCount db followerId < authz.maxConcurrentPositions, "max_concurrent_reached"),
     (allowLiveForAccount w env db follower.followerAccountId, "runtime_live_boundary_denied"),
     (!env.brokerRuntimePaused follower.followerAccountId, "broker_runtime_paused")]
  pair ++ authorizationWindowOk authz env.now
  ++ identitiesMatch authz macct facct
  ++ validateFollowerBinding follower.masterAccountId follower.followerAccountId macct facct
  ++ symbols ++ watermark
  ++ protectionOk (w.masterPosition rep.masterEventId)
  ++ [(rep.sltpTranslationOk, "sltp_incomplete")]
  ++ sizeChecks (freshOpenSize event follower constraints) authz
  ++ boundary

/-- The admission of a live open order under the authorization that was read for its pair: the key
of that authorization, or the reason of the refusal. -/
def admitOpenLive (w : World) (env : Env) (db : Db) (authz : Option (ℕ × CopierLiveAuthorization))
    (rep : CopierReplication) (followerId : ℕ) (follower : CopierFollower) (event : MasterEvent) :
    Except String ℕ :=
  let gates := [(copierLiveExecuteEnabled env.flags, "live_copier_arm_disabled"),
      (!env.killSwitchEngaged, "live_copier_kill_switch_engaged")]
    ++ producible rep follower
    ++ [(!isDemoEnvironment (w.accounts follower.followerAccountId),
      "follower_is_demo_use_demo_path")]
  match firstRefusal gates with
  | some reason => .error reason
  | none =>
    match authz with
    | none => .error "no_live_authorization"
    | some (id, authz) =>
      match firstRefusal (authorizationChecks w env db authz rep followerId follower event) with
      | some reason => .error reason
      | none => .ok id

/-- The admission of an open order.  The admission of demo followers is no part of the live path:
they are refused here, and served by the other producers. -/
def admitOpen (w : World) (env : Env) (db : Db) (authz : Option (ℕ × CopierLiveAuthorization))
    (rep : CopierReplication) (followerId : ℕ) (follower : CopierFollower) (event : MasterEvent) :
    Except String ℕ :=
  match firstRefusal (producible rep follower) with
  | some reason => .error reason
  | none => admitOpenLive w env db authz rep followerId follower event

/-- What an admission has checked. -/
lemma of_admitOpen {w : World} {env : Env} {db : Db}
    {authz : Option (ℕ × CopierLiveAuthorization)} {rep : CopierReplication} {followerId : ℕ}
    {follower : CopierFollower} {event : MasterEvent} {id : ℕ}
    (h : admitOpen w env db authz rep followerId follower event = .ok id) :
    (∀ c ∈ producible rep follower, c.1 = true) ∧ ∃ row, authz = some (id, row) ∧
      ∀ c ∈ authorizationChecks w env db row rep followerId follower event, c.1 = true := by
  unfold admitOpen at h
  split at h
  · cases h
  · rename_i hproducible
    refine ⟨firstRefusal_eq_none_iff.mp hproducible, ?_⟩
    unfold admitOpenLive at h
    dsimp only at h
    split at h
    · cases h
    · split at h
      · cases h
      · split at h
        · cases h
        · rename_i row _ hchecks
          obtain rfl := Except.ok.inj h
          exact ⟨row, rfl, firstRefusal_eq_none_iff.mp hchecks⟩

/-- The conditions of the admission that compare the terms of an authorization, which never change,
with the accounts, the intent and the event of a copy. -/
structure Fits (w : World) (authz : CopierLiveAuthorization) (rep : CopierReplication)
    (follower : CopierFollower) (event : MasterEvent) : Prop where
  user : authz.userId = (w.accounts follower.followerAccountId).userId ∧
    (w.accounts follower.followerAccountId).userId = (w.accounts follower.masterAccountId).userId
  masterAccount : authz.masterAccountId = follower.masterAccountId
  followerAccount : authz.followerAccountId = follower.followerAccountId
  identities : ∀ c ∈ identitiesMatch authz (w.accounts follower.masterAccountId)
    (w.accounts follower.followerAccountId), c.1 = true
  sourceSymbol : event.symbol = authz.sourceSymbol
  resolved : (resolveFollowerSymbol w.symbolMaps (w.accounts follower.masterAccountId)
    event.symbol (w.accounts follower.followerAccountId)).ok = true
  followerSymbol : (resolveFollowerSymbol w.symbolMaps (w.accounts follower.masterAccountId)
    event.symbol (w.accounts follower.followerAccountId)).followerSymbol = authz.followerSymbol
  intentSymbol : rep.followerSymbol = authz.followerSymbol
  watermarkSequence : authz.watermarkEventSequence < event.sequence
  watermarkTime : authz.watermarkAt < event.observedAt

lemma fits_of_authorizationChecks {w : World} {env : Env} {db : Db}
    {authz : CopierLiveAuthorization} {rep : CopierReplication} {followerId : ℕ}
    {follower : CopierFollower} {event : MasterEvent}
    (h : ∀ c ∈ authorizationChecks w env db authz rep followerId follower event, c.1 = true) :
    Fits w authz rep follower event := by
  simp only [authorizationChecks, List.forall_mem_append, List.forall_mem_cons,
    decide_eq_true_eq] at h
  obtain ⟨⟨⟨⟨⟨⟨⟨⟨⟨hpair, -⟩, hidentities⟩, -⟩, hsymbols⟩, hwatermark⟩, -⟩, -⟩, -⟩, -⟩ := h
  obtain ⟨huser, hmaster, hfollower, -⟩ := hpair
  obtain ⟨-, hsource, hresolved, hintent, -⟩ := hsymbols
  obtain ⟨hsequence, htime, -⟩ := hwatermark
  exact ⟨huser, hmaster, hfollower, hidentities, hsource, hresolved.1, hresolved.2, hintent,
    hsequence, htime⟩

/-! ### Creation -/

def livePayload (replicationId : ℕ) (rep : CopierReplication) (event : MasterEvent)
    (authorizationId : ℕ) (authz : CopierLiveAuthorization) (volume : ℚ) (maxLot : Option ℚ) :
    Payload where
  symbol := rep.followerSymbol
  providerSymbol := event.symbol
  side := event.side
  lots := volume
  slPrice := rep.translatedSl
  tpPrice := rep.translatedTp
  isDemo := false
  executionMode := .live
  comment := "CPY" ++ toString replicationId
  maxLot := maxLot
  copierReplicationId := replicationId
  copierLiveAuthorizationId := some authorizationId
  requireIdentityPin := true
  expectedLogin := authz.followerLogin
  expectedServer := authz.followerServer
  expectedEnvironment := some authz.followerEnvironment

/-- What the creation of a live order has read and is about to write. -/
structure Txn where
  replicationId : ℕ
  replication : CopierReplication
  followerId : ℕ
  follower : CopierFollower
  event : MasterEvent
  /-- The authorization that the admission read. -/
  admittedId : ℕ
  /-- The authorization that is locked and charged, as it is before the charge. -/
  authorizationId : ℕ
  authorization : CopierLiveAuthorization
  now : Time
  openCount : ℕ
  volume : ℚ
  job : ExecutionJob
  deriving DecidableEq, Repr

/-- The gates that are evaluated again on the locked row. -/
def createChecks (env : Env) (authz : CopierLiveAuthorization) (openCount : ℕ)
    (sr : SizingResult) : List (Bool × String) :=
  authorizationWindowOk authz env.now
  ++ [(!env.killSwitchEngaged, "live_copier_kill_switch_engaged"),
   (openCount < authz.maxConcurrentPositions, "max_concurrent_reached")]
  ++ sizeChecks sr authz

/-- The creation of the live order, under the lock of the authorization. -/
def createLiveOpenJob (w : World) (env : Env) (db : Db) (replicationId : ℕ)
    (rep : CopierReplication) (followerId : ℕ) (follower : CopierFollower) (event : MasterEvent)
    (admittedId authorizationId : ℕ) (authz : CopierLiveAuthorization) : Except String Txn :=
  let openCount := openLiveCopierCount db followerId
  let constraints :=
    brokerConstraints (env.instruments follower.followerAccountId rep.followerSymbol)
  let sr := freshOpenSize event follower constraints
  match firstRefusal (createChecks env authz openCount sr) with
  | some reason => .error reason
  | none =>
    let volume := sr.volume.getD 0
    let job : ExecutionJob :=
      { accountId := follower.followerAccountId
        jobType := .placeOrder
        terminalNodeId := (w.accounts follower.followerAccountId).terminalNodeId
        payload := livePayload replicationId rep event authorizationId authz volume
          (maxLot constraints follower)
        hostedIdempotencyKey := "copier-live:" ++ toString replicationId }
    .ok { replicationId, replication := rep, followerId, follower, event, admittedId
          authorizationId, authorization := authz, now := env.now, openCount, volume, job }

/-- The authorization that a creation charges meets every condition of the admission, at the moment
of the creation. -/
structure Txn.Covered (w : World) (t : Txn) : Prop where
  fits : Fits w t.authorization t.replication t.follower t.event
  active : t.authorization.status = .active
  notRevoked : t.authorization.revokedAt = none
  begun : t.authorization.validFrom ≤ t.now
  unexpired : t.now < t.authorization.expiresAt
  allowance : t.authorization.ordersConsumed < t.authorization.maxOrders
  volume : 0 < t.volume ∧ t.volume ≤ t.authorization.maxVolume + volEps
  concurrency : t.openCount < t.authorization.maxConcurrentPositions

/-- What the creation has checked on the locked row: everything but that its terms fit. -/
lemma of_createLiveOpenJob {w : World} {env : Env} {db : Db} {r : ℕ} {rep : CopierReplication}
    {f : ℕ} {follower : CopierFollower} {event : MasterEvent} {a id : ℕ}
    {authz : CopierLiveAuthorization} {t : Txn}
    (h : createLiveOpenJob w env db r rep f follower event a id authz = .ok t) :
    ∃ volume job, t = ⟨r, rep, f, follower, event, a, id, authz, env.now,
        openLiveCopierCount db f, volume, job⟩ ∧
      job.payload.executionMode = .live ∧ job.payload.copierReplicationId = r ∧
      job.payload.copierLiveAuthorizationId = some id ∧
      (Fits w authz rep follower event → t.Covered w) ∧
      authz.status = .active ∧ authz.ordersConsumed < authz.maxOrders ∧
      openLiveCopierCount db f < authz.maxConcurrentPositions := by
  unfold createLiveOpenJob at h
  dsimp only at h
  split at h
  · cases h
  · rename_i hchecks
    have hall := firstRefusal_eq_none_iff.mp hchecks
    simp only [createChecks, authorizationWindowOk, sizeChecks, List.forall_mem_append,
      List.forall_mem_cons, decide_eq_true_eq] at hall
    obtain ⟨⟨⟨hactive, hbegun, hunexpired, hallowance, -⟩, -, hcount, -⟩, -, -, hpos, hmax, -⟩ := hall
    obtain rfl := Except.ok.inj h
    refine ⟨_, _, rfl, rfl, rfl, rfl, fun hfits => ?_, hactive.1, hallowance, hcount⟩
    obtain ⟨v, hv, hv0⟩ := (Option.any_eq_true _ _).mp hpos
    have hvmax : v ≤ authz.maxVolume + volEps := by simpa [hv] using hmax
    refine ⟨hfits, hactive.1, hactive.2, hbegun, hunexpired, hallowance, ?_, hcount⟩
    simp only [hv, Option.getD_some]
    exact ⟨by simpa using hv0, hvmax⟩

/-- The authorization after one order; the last one retires it. -/
def CopierLiveAuthorization.consume (authz : CopierLiveAuthorization) : CopierLiveAuthorization :=
  { authz with
    ordersConsumed := authz.ordersConsumed + 1
    status := if authz.maxOrders ≤ authz.ordersConsumed + 1 then .consumed else authz.status }

/-! ### Grants -/

/-- What an operator asks for. -/
structure GrantRequest where
  ownerId : ℕ
  approverIsStaff : Bool
  masterAccountId : ℕ
  followerAccountId : ℕ
  sourceSymbol : String
  followerSymbol : String
  maxVolume : ℚ
  maxConcurrent : ℕ := 1
  maxOrders : ℕ := 1
  validMinutes : ℕ := 120
  expiresAt : Option Time := none
  deriving DecidableEq, Repr

def maxSequence (db : Db) (masterAccountId : ℕ) : ℕ :=
  ((db.events.filter fun _ ev => ev.masterAccountId = masterAccountId).map
    (·.2.sequence)).foldl max 0

/-- The ceremony that grants an authorization: the new row, or the error of the command. -/
def grantCopierLiveAuthorization (w : World) (env : Env) (db : Db) (request : GrantRequest) :
    Except String CopierLiveAuthorization :=
  let macct := w.accounts request.masterAccountId
  let facct := w.accounts request.followerAccountId
  let sym := resolveFollowerSymbol w.symbolMaps macct request.sourceSymbol facct
  let maxVolume := Decimal.quantizeEven 3 request.maxVolume
  let expiresAt := request.expiresAt.getD (env.now + 60 * request.validMinutes)
  let checks : List (Bool × String) :=
    [(request.approverIsStaff,
      "--approved-by must be an existing STAFF user (human approval is mandatory)"),
     (macct.userId = facct.userId ∧ facct.userId = request.ownerId,
      "both accounts must be owned by --user-email (tenant isolation)"),
     (request.masterAccountId ≠ request.followerAccountId,
      "master and follower must differ (self-follow)"),
     (isLiveEnvironment facct,
      "follower account does not cleanly resolve to a LIVE environment (fail-closed)"),
     (facct.isActive, "follower account is not active (is_active=False)"),
     (isLiveEnvironment macct,
      "master account does not cleanly resolve to a LIVE environment (fail-closed)"),
     (w.isMaster request.masterAccountId,
      "master account has no CopierMaster (not an observed master)"),
     ((db.followers.first fun _ f => f.masterAccountId = request.masterAccountId ∧
        f.followerAccountId = request.followerAccountId).isSome,
      "no CopierFollower binds this master->follower pair"),
     (sym.ok ∧ sym.followerSymbol = request.followerSymbol,
      "symbol map does not verify " ++ request.sourceSymbol ++ " -> " ++ request.followerSymbol),
     ((env.instruments request.followerAccountId request.followerSymbol).any (·.enabled),
      "follower instrument " ++ request.followerSymbol ++ " not enabled on account "
        ++ toString request.followerAccountId),
     (activeAuthorizationFor db request.masterAccountId request.followerAccountId = none,
      "an ACTIVE CopierLiveAuthorization already exists for this pair (revoke it first)"),
     (0 < maxVolume, "--max-volume must be positive at 0.001 lot precision (e.g. >= 0.001)"),
     (1 ≤ request.maxOrders ∧ 1 ≤ request.maxConcurrent,
      "--max-orders and --max-concurrent must each be >= 1"),
     (env.now < expiresAt, "expiry must be in the future")]
  match firstRefusal checks, currentIdentity macct, currentIdentity facct with
  | none, (ml, ms, some me), (fl, fs, some fe) =>
    .ok { userId := request.ownerId
          masterAccountId := request.masterAccountId
          followerAccountId := request.followerAccountId
          masterLogin := ml, masterServer := ms, masterEnvironment := me
          followerLogin := fl, followerServer := fs, followerEnvironment := fe
          sourceSymbol := request.sourceSymbol, followerSymbol := request.followerSymbol
          maxVolume, maxConcurrentPositions := request.maxConcurrent
          maxOrders := request.maxOrders
          validFrom := env.now, expiresAt
          -- only an event after the latest one of the master qualifies
          watermarkAt := env.now
          watermarkEventSequence := maxSequence db request.masterAccountId
          createdAt := env.now }
  | some reason, _, _ => .error reason
  | none, _, _ => .error "account environment could not be resolved"

lemma of_grant {env : Env} {db : Db} {request : GrantRequest} {authz : CopierLiveAuthorization}
    (h : grantCopierLiveAuthorization w env db request = .ok authz) :
    activeAuthorizationFor db authz.masterAccountId authz.followerAccountId = none ∧
      authz.status = .active ∧ authz.ordersConsumed = 0 ∧ 1 ≤ authz.maxOrders ∧
      authz.watermarkEventSequence = maxSequence db authz.masterAccountId := by
  unfold grantCopierLiveAuthorization at h
  dsimp only at h
  split at h
  · rename_i hchecks _ _
    have hall := firstRefusal_eq_none_iff.mp hchecks
    simp only [List.forall_mem_cons, decide_eq_true_eq] at hall
    obtain ⟨-, -, -, -, -, -, -, -, -, -, hactive, -, horders, -⟩ := hall
    obtain rfl := Except.ok.inj h
    exact ⟨hactive, rfl, rfl, horders.1, rfl⟩
  · cases h
  · cases h

end LiveExecution
end GuvFX
