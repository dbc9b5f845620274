/-
# Payment webhooks

A payment provider posts events about subscriptions.  A delivery is handled in steps: the signature of the
body is verified, the event is recorded under an idempotency key, the user is looked up, the timestamp of
the provider is compared with the last change of the subscription, and the transition is saved.  Each
access to the database is a transaction of its own, so that deliveries that are handled at once interleave
between any two of them, and a handler can die there.

What the handler calls outside of the repository is a parameter: the parser, the hashes, and how a value
is made into a text or a time.
-/
import Mathlib.Algebra.Order.Field.Rat
import GuvFX.TradeCopier.Account
import GuvFX.Lib.Runs
import GuvFX.Lib.SignedBody

namespace GuvFX
namespace PaymentWebhooks

open Runs
open SignedBody (get Fields)

/-! ### Records -/

inductive PlanStatus where
  | trialActive
  | active
  | pastDue
  | cancelled
  | expired
  | viewerOnly
  deriving DecidableEq, Repr

structure UserSubscriptionState where
  currentPlan : Option String := none
  planStatus : PlanStatus := .viewerOnly
  viewerMode : Bool := true
  hasEverPaid : Bool := false
  lastPaymentAt : Option Time := none
  lastPlanChangeAt : Option Time := none
  deriving DecidableEq, Repr

inductive ProcessingStatus where
  | verified
  | rejected
  | processed
  | failed
  deriving DecidableEq, Repr

/-- A point in time as the handler has parsed it. -/
inductive Timestamp where
  | aware (t : Time)
  /-- Without an offset; it cannot be compared with the times of the database. -/
  | naive (t : Time)
  deriving DecidableEq, Repr

/-- An event that a provider has sent: the payload of a body whose signature has been verified. -/
structure Event where
  providerName : String
  payload : Fields

structure PaymentEvent where
  event : Event
  idempotencyKey : String
  signatureVerifiedAt : Time
  processingStatus : ProcessingStatus
  processedAt : Option Time := none

/-- A request to the endpoint. -/
structure Delivery where
  providerName : String
  body : String
  webhookSignature : String
  stripeSignature : String := ""
  deriving DecidableEq, Repr

inductive Lookup where
  | found (user : ℕ)
  | missing
  /-- The query cannot be made from the value. -/
  | raises
  deriving DecidableEq, Repr

/-- The settings and the users, and what the handler calls. -/
structure Site where
  /-- `json.loads` of a body that is an object; none for any other one. -/
  loads : String → Option Fields
  str : Json → String
  truthy : Json → Bool
  /-- The time that the member `created` gives. -/
  timestamp : Json → Option Timestamp
  strTimestamp : Timestamp → String
  upper : String → String
  sha256 : String → String
  hmac : String → String → String
  setting : String → String
  users : Json → Lookup
  /-- The columns of the record can hold the event. -/
  storable : Event → Bool

/-! ### The signature -/

def Delivery.providedSig (d : Delivery) : String :=
  if d.webhookSignature ≠ "" then d.webhookSignature else d.stripeSignature

def Site.signingSecret (site : Site) (providerName : String) : String :=
  site.setting ("PAYMENT_WEBHOOK_SECRET_" ++ site.upper providerName)

def verifyProviderSignature (site : Site) (d : Delivery) : Bool :=
  site.signingSecret d.providerName ≠ "" ∧ d.providedSig ≠ "" ∧
    site.hmac (site.signingSecret d.providerName) d.body = d.providedSig

/-- The event of a delivery whose body is an object and has the right signature. -/
def received (site : Site) (d : Delivery) : Option Event :=
  match site.loads d.body with
  | none => none
  | some payload => if verifyProviderSignature site d then some ⟨d.providerName, payload⟩ else none

/-! ### What is read from a payload -/

namespace Event

variable (site : Site) (e : Event)

def text (name : String) : String := ((get e.payload name).map site.str).getD ""

def providerEventId : String := e.text site "id"

def eventType : String := e.text site "type"

def subscriptionReference : String := e.text site "subscription"

def providerTimestamp : Option Timestamp :=
  match get e.payload "created" with
  | none | some .null => none
  | some raw => site.timestamp raw

/-- `payload.get("user_id") or payload.get("customer_email")` -/
def userRef : Option Json :=
  match get e.payload "user_id" with
  | none => get e.payload "customer_email"
  | some ref => if site.truthy ref then some ref else get e.payload "customer_email"

def resolveUser : Lookup :=
  match e.userRef site with
  | none | some .null => .missing
  | some ref => site.users ref

def plan : Option Json := (get e.payload "plan").filter site.truthy

def rawKey : String :=
  if e.providerEventId site ≠ "" then e.providerName ++ ":" ++ e.providerEventId site
  else e.providerName ++ ":" ++ e.eventType site ++ ":" ++ e.subscriptionReference site ++ ":" ++
    ((e.providerTimestamp site).map site.strTimestamp).getD ""

def idempotencyKey : String := site.sha256 (e.rawKey site)

end Event

def normalizeWebhookStatus : String → Option PlanStatus
  | "trial" => some .trialActive
  | "active" => some .active
  | "past_due" => some .pastDue
  | "cancelled" => some .cancelled
  | "suspended" => some .expired
  | _ => none

def Event.status (site : Site) (e : Event) : Option PlanStatus :=
  normalizeWebhookStatus (e.text site "status")

def PlanStatus.isViewer : PlanStatus → Bool
  | .expired | .cancelled | .viewerOnly => true
  | _ => false

/-- The transition as the handler makes it on the copy of the state that it has loaded. -/
def applySubscriptionTransition (site : Site) (target : PlanStatus) (plan : Option Json) (now : Time)
    (state : UserSubscriptionState) : UserSubscriptionState :=
  { currentPlan := (plan.map site.str).or state.currentPlan
    planStatus := target
    viewerMode := target.isViewer
    hasEverPaid := state.hasEverPaid || target = .active
    lastPaymentAt := if target = .active then some now else state.lastPaymentAt
    lastPlanChangeAt := some now }

/-! ### The system -/

/-- How far a handler has come. -/
inductive Place where
  | idle
  | received (d : Delivery)
  /-- Before the record is created. -/
  | verified (e : Event)
  /-- Before the user is looked up. -/
  | recorded (e : Event)
  /-- Before the timestamps are compared. -/
  | resolved (e : Event) (user : ℕ)
  /-- Before the state is loaded; `authority` is the last change that the event was compared with. -/
  | current (e : Event) (user : ℕ) (status : PlanStatus) (authority : Option Time)
  /-- Before the state is saved. -/
  | loaded (e : Event) (user : ℕ) (status : PlanStatus) (authority : Option Time)
      (state : UserSubscriptionState)
  | marking (e : Event) (status : ProcessingStatus)

structure State where
  now : Time
  events : List PaymentEvent := []
  states : ℕ → Option UserSubscriptionState
  handlers : ℕ → Place := fun _ => .idle
  /-- The events whose transitions have been saved, with the users, the latest one last. -/
  applied : List (Event × ℕ) := []

inductive Action where
  /-- The clock advances. -/
  | tick (t : Time)
  | deliver (p : ℕ) (d : Delivery)
  | verify (p : ℕ)
  | record (p : ℕ)
  | resolve (p : ℕ)
  | check (p : ℕ)
  | load (p : ℕ)
  /-- `saves` says whether the database accepts the state. -/
  | save (p : ℕ) (saves : Bool)
  | mark (p : ℕ)
  /-- The handler dies, or a call raises. -/
  | raise (p : ℕ)

namespace State

def goto (s : State) (p : ℕ) (place : Place) : State :=
  { s with handlers := Function.update s.handlers p place }

def loadState (s : State) (user : ℕ) : UserSubscriptionState := (s.states user).getD {}

def authority (s : State) (user : ℕ) : Option Time := (s.states user).bind (·.lastPlanChangeAt)

/-- The comparison with the last change, and then the status. -/
def checkOrdering (site : Site) (s : State) (p : ℕ) (e : Event) (user : ℕ) : State :=
  let accept : State :=
    match e.status site with
    | none => s.goto p (.marking e .rejected)
    | some status => s.goto p (.current e user status (s.authority user))
  match e.providerTimestamp site, s.authority user with
  | some (.aware t), some authority => if t < authority then s.goto p (.marking e .rejected) else accept
  -- a naive time cannot be compared
  | some (.naive _), some _ => s.goto p .idle
  | _, _ => accept

end State

open State

def step (site : Site) (s : State) : Action → State
  | .tick t => { s with now := max s.now t }
  | .deliver p d =>
    match s.handlers p with
    | .idle => s.goto p (.received d)
    | _ => s
  | .verify p =>
    match s.handlers p with
    | .received d =>
      match received site d with
      | none => s.goto p .idle
      | some e => s.goto p (.verified e)
    | _ => s
  | .record p =>
    match s.handlers p with
    | .verified e =>
      let key := e.idempotencyKey site
      if site.storable e = false then s.goto p .idle
      else if s.events.any (·.idempotencyKey = key) then s.goto p .idle
      else
        let row : PaymentEvent :=
          { event := e, idempotencyKey := key, signatureVerifiedAt := s.now, processingStatus := .verified }
        let created := { s with events := s.events ++ [row] }
        created.goto p (.recorded e)
    | _ => s
  | .resolve p =>
    match s.handlers p with
    | .recorded e =>
      match e.resolveUser site with
      | .raises => s.goto p .idle
      | .missing => s.goto p (.marking e .rejected)
      | .found user => s.goto p (.resolved e user)
    | _ => s
  | .check p =>
    match s.handlers p with
    | .resolved e user => s.checkOrdering site p e user
    | _ => s
  | .load p =>
    match s.handlers p with
    | .current e user status authority =>
      let state := s.loadState user
      let created := { s with states := Function.update s.states user (some state) }
      created.goto p (.loaded e user status authority state)
    | _ => s
  | .save p saves =>
    match s.handlers p with
    | .loaded e user status _ state =>
      if saves then
        let state := applySubscriptionTransition site status (e.plan site) s.now state
        let saved := { s with
          states := Function.update s.states user (some state)
          applied := s.applied ++ [(e, user)] }
        saved.goto p (.marking e .processed)
      else s.goto p (.marking e .failed)
    | _ => s
  | .mark p =>
    match s.handlers p with
    | .marking e status =>
      let mark (row : PaymentEvent) : PaymentEvent :=
        if row.idempotencyKey = e.idempotencyKey site then
          { row with processingStatus := status, processedAt := some s.now }
        else row
      let marked := { s with events := s.events.map mark }
      marked.goto p .idle
    | _ => s
  | .raise p => s.goto p .idle

example (site : Site) (s : State) (p : ℕ) (h : s.handlers p = .idle) :
    step site s (.verify p) = s := by
  simp [step, h]

/-- Before the first delivery. -/
def init (now : Time) (states : ℕ → Option UserSubscriptionState) : State := { now, states }

end PaymentWebhooks
end GuvFX
