/-
# Monitoring routes

A monitoring route is one occupancy of a slot, a local port on a physical host, by a trading
account.  A route is reserved at the next generation of its slot, registered, verified, made ready,
drained and tombstoned; a disagreement about its identity quarantines it.  Every operation on an
existing route locks the row, compares it with the copy that its caller holds, and saves it under the
uniqueness constraints of the table.  A reservation reads several times under the lock of the
gateway and creates its row at the end; a lost race is retried from the start.
-/
import Mathlib.Algebra.Order.Field.Rat
import GuvFX.Lib.Locks
import GuvFX.Lib.Runs
import GuvFX.Lib.Table
import GuvFX.Lib.Text
import GuvFX.TradeCopier.Account

namespace GuvFX
namespace Monitoring

/-! ### Records -/

inductive RouteState where
  | reserved
  | registered
  | verified
  | ready
  | draining
  | tombstoned
  | quarantined
  deriving DecidableEq, Repr

inductive Readiness where
  | unknown
  | connectedNotReady
  | monitoringReady
  | monitoringPartial
  | monitoringUnavailable
  | unsupported
  deriving DecidableEq, Repr

inductive Health where
  | ok
  | stale
  | degraded
  | failed
  | unknown
  deriving DecidableEq, Repr

structure PhysicalHostGateway where
  hostKey : String
  /-- The ceiling on the side of the gateway; 0 leaves it to the capacity of the host. -/
  maxRoutes : ℕ := 0
  /-- The gateway is attested healthy. -/
  routable : Bool := false
  deriving DecidableEq, Repr

/-- A local port on a physical host. -/
abbrev Slot := String × ℕ

structure MonitoringRoute where
  tradingAccountId : ℕ
  gatewayId : ℕ
  executionEndpointId : Option ℕ := none
  hostKey : String
  localPort : ℕ
  allocationGeneration : ℕ
  state : RouteState := .reserved
  readiness : Readiness := .unknown
  lastReasonCode : String
  lastFailureReason : String := ""
  healthState : Health := .unknown
  verifiedLogin : String := ""
  verifiedServer : String := ""
  lastVerifiedAt : Option Time := none
  deriving DecidableEq, Repr

namespace MonitoringRoute

def slot (r : MonitoringRoute) : Slot := (r.hostKey, r.localPort)

def occupies (r : MonitoringRoute) : Bool := r.state ≠ .tombstoned

/-- The states of a route that is in use; a quarantined route is not among them. -/
def isActive (r : MonitoringRoute) : Bool :=
  r.state ≠ .tombstoned && r.state ≠ .quarantined

end MonitoringRoute

structure RouteResult where
  ok : Bool
  reason : String
  routeId : Option ℕ := none
  localPort : Option ℕ := none
  generation : Option ℕ := none
  deriving DecidableEq, Repr

/-- The result of a successful operation on the route `id`. -/
def routeResult (reason : String) (id : ℕ) (r : MonitoringRoute) : RouteResult :=
  ⟨true, reason, some id, some r.localPort, some r.allocationGeneration⟩

/-! ### Operations under the lock of a route -/

/-- What an operation decides about the locked row: to save a row, or nothing, and to return; to
refuse; to quarantine the route. -/
inductive Outcome where
  | done (saved : Option MonitoringRoute) (result : RouteResult)
  | refused (reason : String)
  | quarantine (detail reason : String)

def registerRoute (endpoint localPort : Option ℕ) (id : ℕ) (r : MonitoringRoute) : Outcome :=
  match r.state with
  | .registered | .verified | .ready => .done none (routeResult "already_registered" id r)
  | .reserved =>
    let registered :=
      { r with
        executionEndpointId := endpoint.or r.executionEndpointId
        localPort := localPort.getD r.localPort
        state := .registered
        lastReasonCode := "route_registered" }
    .done (some registered) (routeResult "route_registered" id registered)
  | .draining | .tombstoned | .quarantined => .refused "route_not_reservable"

/-- A broker login on a server. -/
structure Identity where
  login : String
  server : String
  deriving DecidableEq, Repr

/-- A login with all but its last letters hidden. -/
def mask (login : String) : String :=
  if 4 ≤ login.length then "••" ++ String.ofList (login.toList.drop (login.length - 4)) else "••"

def mismatchDetail (expLogin attLogin : String) (serverMatch : Bool) : String :=
  "identity_mismatch login_exp=" ++ mask expLogin ++ " login_att=" ++ mask attLogin ++
    " server_match=" ++ (if serverMatch then "True" else "False")

def verifyRoute (expected attested : Identity) (now : Time) (id : ℕ) (r : MonitoringRoute) :
    Outcome :=
  match r.state with
  | .registered | .verified | .ready =>
    let expLogin := Text.strip expected.login
    let attLogin := Text.strip attested.login
    let expServer := Text.strip expected.server
    let attServer := Text.strip attested.server
    let serverMatch : Bool := Text.casefold attServer = Text.casefold expServer
    if expLogin = "" ∨ attLogin ≠ expLogin ∨ serverMatch = false then
      .quarantine (mismatchDetail expLogin attLogin serverMatch) "bridge_identity_mismatch"
    else
      let verified :=
        { r with
          state := .verified
          verifiedLogin := attLogin
          verifiedServer := attServer
          lastVerifiedAt := some now
          lastReasonCode := "route_verified" }
      .done (some verified) (routeResult "route_verified" id verified)
  | .reserved | .draining | .tombstoned | .quarantined => .refused "route_not_verifiable"

/-- Update the readiness; a verified route with the right readiness is promoted on request, and the
state is otherwise unchanged. -/
def setReadiness (readiness : Readiness) (reasonCode : String) (health : Option Health)
    (makeReady : Bool) (id : ℕ) (r : MonitoringRoute) : Outcome :=
  let updated :=
    { r with
      readiness := readiness
      lastReasonCode := reasonCode
      healthState := health.getD r.healthState
      state :=
        if makeReady = true ∧ r.state = .verified ∧ readiness = .monitoringReady then .ready
        else r.state }
  .done (some updated) (routeResult reasonCode id updated)

def drainRoute (id : ℕ) (r : MonitoringRoute) : Outcome :=
  if r.state = .tombstoned then .done none ⟨true, "already_tombstoned", some id, none, none⟩
  else
    .done (some { r with state := .draining, lastReasonCode := "route_draining" })
      ⟨true, "route_draining", some id, none, none⟩

def tombstoneRoute (reason : String) (id : ℕ) (r : MonitoringRoute) : Outcome :=
  if r.state = .tombstoned then
    .done none ⟨true, "already_tombstoned", some id, none, some r.allocationGeneration⟩
  else
    .done (some { r with
        state := .tombstoned, readiness := .monitoringUnavailable, lastReasonCode := reason })
      ⟨true, reason, some id, none, some r.allocationGeneration⟩

def writeQuarantine (r : MonitoringRoute) (detail reason : String) : MonitoringRoute :=
  { r with
    state := .quarantined
    readiness := .monitoringUnavailable
    lastReasonCode := reason
    lastFailureReason := Text.clip 64 detail }

/-- The slot identity of the row disagrees with the host of its gateway, or its generation with the
copy of the caller. -/
def checkDrift (gatewayHost : String) (fresh copy : MonitoringRoute) : Option String :=
  if fresh.hostKey ≠ gatewayHost ∨ fresh.allocationGeneration ≠ copy.allocationGeneration then
    some ("identity_drift host=" ++ fresh.hostKey ++ " gw=" ++ gatewayHost ++ " gen_db=" ++
      toString fresh.allocationGeneration ++ " gen_mem=" ++ toString copy.allocationGeneration)
  else none

/-- The row that an outcome writes over the locked row, and what the caller gets. -/
def Outcome.write (r : MonitoringRoute) :
    Outcome → Option MonitoringRoute × Except String RouteResult
  | .done saved result => (saved, .ok result)
  | .refused reason => (none, .error reason)
  | .quarantine detail reason => (some (writeQuarantine r detail reason), .error reason)

def runLocked (gatewayHost : String) (copy fresh : MonitoringRoute)
    (fn : MonitoringRoute → Outcome) : Option MonitoringRoute × Except String RouteResult :=
  match checkDrift gatewayHost fresh copy with
  | some detail => (Outcome.quarantine detail "route_integrity_violation").write fresh
  | none => (fn fresh).write fresh

/-! ### The table and its constraints -/

/-- Two rows that the constraints exclude: two occupants of one account or of one slot, two
occupancies of one slot in one generation, one endpoint twice. -/
def clashes (r r' : MonitoringRoute) : Bool :=
  (r.occupies && r'.occupies && (r.tradingAccountId = r'.tradingAccountId || r.slot = r'.slot)) ||
    (r.slot = r'.slot && r.allocationGeneration = r'.allocationGeneration) ||
    (r.executionEndpointId.isSome && r.executionEndpointId = r'.executionEndpointId)

/-- The row may stand under the key `k`. -/
def admits (routes : Table MonitoringRoute) (k : ℕ) (r : MonitoringRoute) : Bool :=
  routes.rows.all fun e => e.1 = k || !clashes r e.2

def gatewayHost (gateways : Table PhysicalHostGateway) (r : MonitoringRoute) : String :=
  ((gateways.get r.gatewayId).map (·.hostKey)).getD ""

/-- An operation on the route `id`, of which the caller holds a copy; a save that the constraints
refuse is rolled back. -/
def operate (gateways : Table PhysicalHostGateway) (routes : Table MonitoringRoute) (id : ℕ)
    (copy : MonitoringRoute) (fn : ℕ → MonitoringRoute → Outcome) :
    Table MonitoringRoute × Except String RouteResult :=
  match routes.get id with
  | none => (routes, .error "DoesNotExist")
  | some fresh =>
    match runLocked (gatewayHost gateways fresh) copy fresh (fn id) with
    | (none, result) => (routes, result)
    | (some saved, result) =>
      if admits routes id saved then (routes.modify id fun _ => saved, result)
      else (routes, .error "IntegrityError")

/-! ### What a reservation reads -/

def portRangeStart : ℕ := 8800

def portRangeEnd : ℕ := 8899

def reservedPorts : List ℕ := [8787, 8788, 8789, 8791]

def activeRoutes (routes : Table MonitoringRoute) (hostKey : String) : List (ℕ × MonitoringRoute) :=
  routes.filter fun _ r => r.hostKey = hostKey && r.occupies

def activeRouteCount (routes : Table MonitoringRoute) (hostKey : String) : ℕ :=
  (activeRoutes routes hostKey).length

def freeLocalPort (routes : Table MonitoringRoute) (hostKey : String) : Option ℕ :=
  (List.range' portRangeStart (portRangeEnd + 1 - portRangeStart)).find? fun port =>
    port ∉ reservedPorts ∧ port ∉ (activeRoutes routes hostKey).map (·.2.localPort)

def slotGenerations (routes : Table MonitoringRoute) (slot : Slot) : List ℕ :=
  (routes.filter fun _ r => r.slot = slot).map (·.2.allocationGeneration)

def maxGeneration (routes : Table MonitoringRoute) (slot : Slot) : ℕ :=
  (slotGenerations routes slot).foldr max 0

def nextGeneration (routes : Table MonitoringRoute) (slot : Slot) : ℕ :=
  maxGeneration routes slot + 1

/-- The ceiling on the routes of a host, from the gateway and from the capacity of the host, as far
as they are set. -/
def effectiveCeiling (gateway : PhysicalHostGateway) (maxTotalOccupants : Option ℕ) : Option ℕ :=
  ([some gateway.maxRoutes, maxTotalOccupants].filterMap fun c => c.filter (· ≠ 0)).min?

def existingRoute (routes : Table MonitoringRoute) (account : ℕ) : Option (ℕ × MonitoringRoute) :=
  routes.first fun _ r => r.tradingAccountId = account && r.occupies

/-! ### The readiness contract -/

structure ProbeResult where
  reachable : Bool
  identityOk : Option Bool
  positionsOk : Option Bool
  reasonCode : String
  deriving DecidableEq, Repr

/-- What a reconcile pass knows about a route besides its copy of the row. -/
structure Observation where
  probe : ProbeResult
  now : Time
  gatewayRoutable : Bool
  accountDisconnected : Bool
  /-- How many routes of the account the pass has loaded. -/
  duplicateCount : ℕ
  deriving DecidableEq, Repr

structure Gates where
  workspaceActive : Bool
  identityMatch : Bool
  boundaryHealthy : Bool
  reachable : Bool
  authIdentityMatch : Bool
  capabilityAdvertised : Bool
  fresh : Bool
  noDuplicateRoute : Bool
  deriving DecidableEq, Repr

def routeFreshSeconds : Time := 300

def computeGates (route : MonitoringRoute) (o : Observation) : Gates where
  workspaceActive := route.isActive && !o.accountDisconnected
  identityMatch := o.probe.identityOk = some true
  boundaryHealthy := o.gatewayRoutable
  reachable := o.probe.reachable
  authIdentityMatch := o.probe.identityOk = some true
  capabilityAdvertised := o.probe.reasonCode ≠ "feature_disabled"
  fresh := route.lastVerifiedAt.any (fun t => 0 ≤ o.now - t ∧ o.now - t ≤ routeFreshSeconds) ||
    o.probe.positionsOk = some true
  noDuplicateRoute := o.duplicateCount ≤ 1

def reasonOr (probe : ProbeResult) (reason : String) : String :=
  if probe.reasonCode = "" then reason else probe.reasonCode

def evaluateRouteReadiness (route : MonitoringRoute) (o : Observation) : Readiness × String :=
  let gates := computeGates route o
  if route.state = .quarantined then (.monitoringUnavailable, "route_integrity_violation")
  else if route.state = .tombstoned then (.monitoringUnavailable, "route_tombstoned")
  else if !gates.noDuplicateRoute then (.monitoringUnavailable, "duplicate_route")
  else if !gates.workspaceActive then (.monitoringUnavailable, "workspace_not_monitoring_ready")
  else if !gates.boundaryHealthy then (.monitoringUnavailable, "gateway_unhealthy")
  else if !gates.reachable then (.monitoringUnavailable, reasonOr o.probe "endpoint_unreachable")
  else if !gates.identityMatch then
    (.monitoringUnavailable, reasonOr o.probe "bridge_identity_mismatch")
  else if o.probe.positionsOk = some true ∧ gates.capabilityAdvertised then
    if gates.fresh then (.monitoringReady, reasonOr o.probe "monitoring_ok")
    else (.monitoringPartial, "stale_health")
  else (.monitoringPartial, reasonOr o.probe "feature_disabled")

def healthForReadiness : Readiness → Health
  | .monitoringReady => .ok
  | .monitoringPartial | .connectedNotReady => .degraded
  | .monitoringUnavailable => .failed
  | .unknown | .unsupported => .unknown

def reconcileRoute (copy : MonitoringRoute) (o : Observation) : ℕ → MonitoringRoute → Outcome :=
  let result := evaluateRouteReadiness copy o
  setReadiness result.1 result.2 (some (healthForReadiness result.1))
    (result.1 = .monitoringReady)

/-! ### The system -/

/-- What a reservation is asked for, with the gateway as its caller holds it. -/
structure Request where
  account : ℕ
  gatewayId : ℕ
  gateway : PhysicalHostGateway
  endpoint : Option ℕ
  deriving DecidableEq, Repr

/-- How far one attempt of a reservation has come. -/
inductive Stage where
  | waiting
  | locked
  /-- The account has no route. -/
  | vacant
  | admitted (ceiling : Option ℕ)
  | placed (ceiling : Option ℕ) (port : ℕ)
  | numbered (ceiling : Option ℕ) (port generation : ℕ)
  deriving DecidableEq, Repr

inductive Reservation where
  | idle
  | working (req : Request) (attempt : ℕ) (stage : Stage)
  | done (result : Except String RouteResult)

def allocMaxAttempts : ℕ := 6

structure State where
  gateways : Table PhysicalHostGateway
  routes : Table MonitoringRoute
  locks : Locks ℕ
  /-- The copies of routes that the callers of the operations hold. -/
  callers : ℕ → Option (ℕ × MonitoringRoute)
  reservations : ℕ → Reservation

inductive Action where
  | ensureGateway (hostKey : String)
  | editGateway (k maxRoutes : ℕ) (routable : Bool)
  /-- A caller reads a route. -/
  | load (c k : ℕ)
  | registerRoute (c : ℕ) (endpoint localPort : Option ℕ)
  | verifyRoute (c : ℕ) (expected attested : Identity) (now : Time)
  | setReadiness (c : ℕ) (readiness : Readiness) (reasonCode : String) (health : Option Health)
      (makeReady : Bool)
  | reconcileRoute (c : ℕ) (o : Observation)
  | drainRoute (c : ℕ)
  | tombstoneRoute (c : ℕ) (reason : String)
  | beginReserve (p : ℕ) (enabled : Bool) (account gatewayId : ℕ) (endpoint : Option ℕ)
  | lockGateway (p : ℕ)
  | checkExisting (p : ℕ)
  | checkCapacity (p : ℕ) (maxTotalOccupants : Option ℕ)
  | scanPort (p : ℕ)
  | numberGeneration (p : ℕ)
  | createRoute (p : ℕ)

def Request.row (req : Request) (port generation : ℕ) : MonitoringRoute where
  tradingAccountId := req.account
  gatewayId := req.gatewayId
  executionEndpointId := req.endpoint
  hostKey := req.gateway.hostKey
  localPort := port
  allocationGeneration := generation
  lastReasonCode := "route_reserved"

def operation : Action → Option (ℕ × (MonitoringRoute → ℕ → MonitoringRoute → Outcome))
  | .registerRoute c endpoint localPort => some (c, fun _ => registerRoute endpoint localPort)
  | .verifyRoute c expected attested now => some (c, fun _ => verifyRoute expected attested now)
  | .setReadiness c readiness reasonCode health makeReady =>
    some (c, fun _ => setReadiness readiness reasonCode health makeReady)
  | .reconcileRoute c o => some (c, fun copy => reconcileRoute copy o)
  | .drainRoute c => some (c, fun _ => drainRoute)
  | .tombstoneRoute c reason => some (c, fun _ => tombstoneRoute reason)
  | .ensureGateway _ | .editGateway .. | .load .. | .beginReserve .. | .lockGateway _
    | .checkExisting _ | .checkCapacity .. | .scanPort _ | .numberGeneration _ | .createRoute _ =>
    none

namespace State

/-- No row and no caller. -/
def initial : State := ⟨.empty, .empty, .free, fun _ => none, fun _ => .idle⟩

def withReservation (s : State) (p : ℕ) (place : Reservation) : State :=
  { s with reservations := Function.update s.reservations p place }

def endAttempt (s : State) (p : ℕ) (place : Reservation) : State :=
  { s.withReservation p place with locks := s.locks.release p }

def operateBy (s : State) (c : ℕ) (fn : MonitoringRoute → ℕ → MonitoringRoute → Outcome) : State :=
  match s.callers c with
  | none => s
  | some (id, copy) => { s with routes := (operate s.gateways s.routes id copy (fn copy)).1 }

end State

/-- The steps on the gateways, the readings of the callers and the steps of the reservations. -/
def otherStep (s : State) : Action → State
  | .ensureGateway hostKey =>
    if s.gateways.rows.any (fun e => e.2.hostKey = hostKey) then s
    else { s with gateways := s.gateways.insert s.gateways.fresh { hostKey := hostKey } }
  | .editGateway k maxRoutes routable =>
    { s with gateways := s.gateways.modify k fun g =>
        { g with maxRoutes := maxRoutes, routable := routable } }
  | .load c k => { s with callers := Function.update s.callers c ((s.routes.get k).map (k, ·)) }
  | .beginReserve p enabled account gatewayId endpoint =>
    match s.reservations p with
    | .working .. => s
    | .idle | .done _ =>
      if enabled then
        match s.gateways.get gatewayId with
        | none => s.withReservation p (.done (.error "route_no_gateway"))
        | some gateway =>
          s.withReservation p (.working ⟨account, gatewayId, gateway, endpoint⟩ 1 .waiting)
      else s.withReservation p (.done (.error "monitoring_subsystem_disabled"))
  | .lockGateway p =>
    match s.reservations p with
    | .working req attempt .waiting =>
      if s.locks req.gatewayId = none then
        { s.withReservation p (.working req attempt .locked) with
          locks := s.locks.take req.gatewayId p }
      else s
    | _ => s
  | .checkExisting p =>
    match s.reservations p with
    | .working req attempt .locked =>
      match existingRoute s.routes req.account with
      | some (k, r) =>
        s.endAttempt p (.done
          (if r.state = .quarantined then .error "route_quarantined_requires_operator"
          else .ok (routeResult "route_reactivated" k r)))
      | none => s.withReservation p (.working req attempt .vacant)
    | _ => s
  | .checkCapacity p maxTotalOccupants =>
    match s.reservations p with
    | .working req attempt .vacant =>
      let ceiling := effectiveCeiling req.gateway maxTotalOccupants
      if ceiling.any (· ≤ activeRouteCount s.routes req.gateway.hostKey) then
        s.endAttempt p (.done (.error "route_host_capacity_exceeded"))
      else s.withReservation p (.working req attempt (.admitted ceiling))
    | _ => s
  | .scanPort p =>
    match s.reservations p with
    | .working req attempt (.admitted ceiling) =>
      match freeLocalPort s.routes req.gateway.hostKey with
      | none => s.endAttempt p (.done (.error "route_pool_exhausted"))
      | some port => s.withReservation p (.working req attempt (.placed ceiling port))
    | _ => s
  | .numberGeneration p =>
    match s.reservations p with
    | .working req attempt (.placed ceiling port) =>
      s.withReservation p (.working req attempt
        (.numbered ceiling port (nextGeneration s.routes (req.gateway.hostKey, port))))
    | _ => s
  | .createRoute p =>
    match s.reservations p with
    | .working req attempt (.numbered _ port generation) =>
      let k := s.routes.fresh
      let row := req.row port generation
      if admits s.routes k row then
        { s.endAttempt p (.done (.ok (routeResult "route_allocated" k row))) with
          routes := s.routes.insert k row }
      else if attempt < allocMaxAttempts then
        s.endAttempt p (.working req (attempt + 1) .waiting)
      else s.endAttempt p (.done (.error "route_alloc_contention"))
    | _ => s
  | _ => s

def step (s : State) (a : Action) : State :=
  match operation a with
  | some (c, fn) => s.operateBy c fn
  | none => otherStep s a

end Monitoring
end GuvFX
