/-
# Correlation of broker events with withdrawals

A broker event is one observation parsed from a message; it is never changed, apart from its correlation
status and the revisions of its category.  The correlation projects the events into withdrawals: by the
reference of the broker if the event carries one, and otherwise by account, amount, currency and time.
Only an event of an external withdrawal creates a withdrawal; the other two passes advance one that exists.

A call correlates one event in one transaction and holds the lock of the owner; calls are taken one after
the other, as in the loop of the single worker, and then no uniqueness constraint is ever violated.  An
event type stands without blanks around it, and an amount is in hundredths.
-/
import GuvFX.Lib.Table
import Mathlib.Data.Int.Notation
import Mathlib.Data.List.Sort

namespace GuvFX
namespace BrokerIntelligence

/-! ### Events and withdrawals -/

inductive Provenance
  | synthetic | sanitised | real
  deriving DecidableEq, Repr

/-- What kind of movement a message is about. -/
inductive TransactionCategory
  | externalWithdrawal | internalTransfer | deposit | unknown
  deriving DecidableEq, Repr

/-- The lifecycle of a withdrawal; the vocabulary is open. -/
inductive EventType
  | withdrawalRequested | withdrawalConfirmationRequired | withdrawalConfirmed | withdrawalProcessing
  | withdrawalApproved | withdrawalCompleted | withdrawalRejected | withdrawalCancelled
  | withdrawalExpired | withdrawalFailed
  | other (name : String)
  deriving DecidableEq, Repr

inductive CorrelationStatus
  | unresolved | correlated | ambiguous
  deriving DecidableEq, Repr

structure BrokerEvent where
  tradingAccount : Option ℕ := none
  owner : Option ℕ := none
  eventType : EventType
  transactionCategory : TransactionCategory := .unknown
  /-- The categories derived again later, the last one at the end. -/
  classificationRevisions : List TransactionCategory := []
  occurredAt : Option ℤ := none
  receivedAt : ℤ
  brokerReferenceId : String := ""
  amount : Option ℤ := none
  currency : String := ""
  correlationStatus : CorrelationStatus := .unresolved
  provenance : Provenance := .synthetic
  deriving DecidableEq, Repr

def BrokerEvent.effectiveTransactionCategory (event : BrokerEvent) : TransactionCategory :=
  event.classificationRevisions.getLast?.getD event.transactionCategory

def BrokerEvent.eventTime (event : BrokerEvent) : ℤ := event.occurredAt.getD event.receivedAt

inductive WithdrawalStatus
  | requested | confirmationRequired | confirmed | processing | completed | rejected | cancelled
  | expired | failed | pending | unresolved
  deriving DecidableEq, Repr

inductive CorrelationMethod
  | referenceId | heuristic
  deriving DecidableEq, Repr

structure Withdrawal where
  tradingAccount : Option ℕ := none
  owner : Option ℕ := none
  brokerReferenceId : String := ""
  amount : Option ℤ := none
  currency : String := ""
  requestedAt : Option ℤ := none
  confirmationRequiredAt : Option ℤ := none
  confirmedAt : Option ℤ := none
  processingStartedAt : Option ℤ := none
  completedAt : Option ℤ := none
  lastStatusChangeAt : Option ℤ := none
  status : WithdrawalStatus
  requestedEvent : Option ℕ := none
  completedEvent : Option ℕ := none
  correlationMethod : Option CorrelationMethod := none
  provenance : Provenance := .synthetic
  createdAt : ℤ
  deriving DecidableEq, Repr

/-- The delivery of a message into one inbox, with the sender's own message id as a hint. -/
structure BrokerMessageObservation where
  owner : Option ℕ
  rfc822MessageId : String
  event : Option ℕ
  deriving DecidableEq, Repr

/-! ### Status -/

def statusRank : WithdrawalStatus → ℕ
  | .unresolved => 0
  | .pending | .requested => 1
  | .confirmationRequired => 2
  | .confirmed => 3
  | .processing => 4
  | .completed | .rejected | .cancelled | .expired | .failed => 5

def statusForEvent : EventType → Option WithdrawalStatus
  | .withdrawalCompleted => some .completed
  | .withdrawalRejected => some .rejected
  | .withdrawalCancelled => some .cancelled
  | .withdrawalExpired => some .expired
  | .withdrawalFailed => some .failed
  | .withdrawalProcessing | .withdrawalApproved => some .processing
  | .withdrawalConfirmed => some .confirmed
  | .withdrawalConfirmationRequired => some .confirmationRequired
  | .withdrawalRequested => some .requested
  | .other _ => none

def isTerminal : WithdrawalStatus → Bool
  | .completed | .rejected | .cancelled | .expired | .failed => true
  | _ => false

/-- The stages that have an anchor of their own. -/
inductive Stage
  | confirmationRequired | confirmed | processing
  deriving DecidableEq, Repr

def stageAnchor : EventType → Option Stage
  | .withdrawalConfirmationRequired => some .confirmationRequired
  | .withdrawalConfirmed => some .confirmed
  | .withdrawalProcessing | .withdrawalApproved => some .processing
  | _ => none

def Withdrawal.stampStage (stage : Option Stage) (t : ℤ) (w : Withdrawal) : Withdrawal :=
  match stage with
  | none => w
  | some .confirmationRequired =>
    { w with confirmationRequiredAt := some (w.confirmationRequiredAt.getD t) }
  | some .confirmed => { w with confirmedAt := some (w.confirmedAt.getD t) }
  | some .processing => { w with processingStartedAt := some (w.processingStartedAt.getD t) }

/-! ### One event and one withdrawal -/

/-- The status is advanced, if the new one ranks higher. -/
def Withdrawal.advanceStatus (target : WithdrawalStatus) (t : ℤ) (w : Withdrawal) : Withdrawal :=
  if statusRank w.status < statusRank target then
    { w with
      status := target
      lastStatusChangeAt := some t }
  else w

def Withdrawal.fillAmount (event : BrokerEvent) (w : Withdrawal) : Withdrawal :=
  { w with
    amount := w.amount.or event.amount
    currency := if w.currency = "" then event.currency else w.currency }

/-- The anchor of the request is filled in by an event that is not a terminal one. -/
def Withdrawal.stampRequest (pk : ℕ) (target : WithdrawalStatus) (t : ℤ) (w : Withdrawal) : Withdrawal :=
  if isTerminal target then w
  else
    { w with
      requestedAt := some (w.requestedAt.getD t)
      requestedEvent := some (w.requestedEvent.getD pk) }

def Withdrawal.stampCompletion (pk : ℕ) (target : WithdrawalStatus) (t : ℤ) (w : Withdrawal) :
    Withdrawal :=
  if target = .completed ∧ w.status = .completed then
    { w with
      completedAt := some (w.completedAt.getD t)
      completedEvent := some (w.completedEvent.getD pk) }
  else w

def Withdrawal.recordMethod (method : CorrelationMethod) (w : Withdrawal) : Withdrawal :=
  { w with correlationMethod := some (w.correlationMethod.getD method) }

def applyEvent (pk : ℕ) (event : BrokerEvent) (target : WithdrawalStatus) (method : CorrelationMethod)
    (w : Withdrawal) : Withdrawal :=
  let t := event.eventTime
  (((((w.advanceStatus target t).fillAmount event).stampRequest pk target t).stampStage
    (stageAnchor event.eventType) t).stampCompletion pk target t).recordMethod method

def createByReference (pk : ℕ) (event : BrokerEvent) (target : WithdrawalStatus) (now : ℤ) : Withdrawal :=
  let t := event.eventTime
  let w : Withdrawal :=
    { tradingAccount := event.tradingAccount
      owner := event.owner
      brokerReferenceId := event.brokerReferenceId
      amount := event.amount
      currency := event.currency
      status := target
      correlationMethod := some .referenceId
      provenance := event.provenance
      requestedAt := if isTerminal target then none else some t
      requestedEvent := if isTerminal target then none else some pk
      completedAt := if target = .completed then some t else none
      completedEvent := if target = .completed then some pk else none
      lastStatusChangeAt := some t
      createdAt := now }
  w.stampStage (stageAnchor event.eventType) t

def createHeuristic (pk : ℕ) (event : BrokerEvent) (target : WithdrawalStatus) (now : ℤ) : Withdrawal :=
  let t := event.eventTime
  let w : Withdrawal :=
    { tradingAccount := event.tradingAccount
      owner := event.owner
      brokerReferenceId := ""
      amount := event.amount
      currency := event.currency
      status := target
      correlationMethod := some .heuristic
      provenance := event.provenance
      requestedAt := some t
      requestedEvent := some pk
      lastStatusChangeAt := some t
      createdAt := now }
  w.stampStage (stageAnchor event.eventType) t

/-! ### The search for a withdrawal -/

/-- The default order of withdrawals: the latest request first, those without one before them, and the
later row first. -/
def listedBefore (a b : ℕ × Withdrawal) : Bool :=
  match a.2.requestedAt, b.2.requestedAt with
  | none, none => b.1 ≤ a.1
  | none, some _ => true
  | some _, none => false
  | some s, some t => t < s || (s = t && b.1 ≤ a.1)

def firstWithdrawal (withdrawals : Table Withdrawal) (p : Withdrawal → Bool) : Option (ℕ × Withdrawal) :=
  ((withdrawals.filter fun _ w => p w).insertionSort fun a b => listedBefore a b).head?

def findByReference (event : BrokerEvent) (withdrawals : Table Withdrawal) : Option (ℕ × Withdrawal) :=
  let ref := event.brokerReferenceId
  let unbound (owner : ℕ) : Option (ℕ × Withdrawal) := firstWithdrawal withdrawals fun w =>
    w.owner = some owner && w.tradingAccount.isNone && w.brokerReferenceId = ref
  match event.tradingAccount, event.owner with
  | some account, owner =>
    let strict := firstWithdrawal withdrawals fun w =>
      w.tradingAccount = some account && w.brokerReferenceId = ref
    strict.or (owner.bind unbound)
  | none, some owner =>
    let bridge := firstWithdrawal withdrawals fun w =>
      w.owner = some owner && w.brokerReferenceId = ref
    (unbound owner).or bridge
  | none, none => none

/-- Fourteen days, in seconds. -/
def heuristicWindow : ℤ := 14 * 24 * 3600

def heuristicCandidates (event : BrokerEvent) (withdrawals : Table Withdrawal) : List (ℕ × Withdrawal) :=
  let anchor := event.eventTime
  withdrawals.filter fun _ w =>
    let t := w.requestedAt.getD w.createdAt
    (match event.tradingAccount with
      | some account => w.tradingAccount = some account
      | none => w.owner = event.owner && w.tradingAccount.isNone)
    && w.brokerReferenceId = "" && w.amount = event.amount && w.currency = event.currency
    && anchor - heuristicWindow ≤ t && t ≤ anchor + heuristicWindow

/-- The withdrawal that a copy of the same message in another inbox of the owner has opened. -/
def reflessSiblingWithdrawal (pk : ℕ) (event : BrokerEvent) (observations : List BrokerMessageObservation)
    (withdrawals : Table Withdrawal) : Option ℕ :=
  let own := observations.filter fun o => o.event = some pk && o.rfc822MessageId ≠ ""
  own.findSome? fun o =>
    o.owner.bind fun owner =>
      let siblings := (observations.filter fun o' => o'.owner = some owner
        && o'.rfc822MessageId = o.rfc822MessageId && o'.event ≠ some pk).filterMap
          BrokerMessageObservation.event
      ((withdrawals.filter fun _ w => w.requestedEvent.any siblings.contains
        && w.tradingAccount = event.tradingAccount).map Prod.fst).min?

/-! ### The correlation of one event -/

inductive Outcome
  | reference | heuristic | crossInbox | created | completionAdvanced | advanced
  | ambiguous | unresolved | already | skippedNotExternal | skippedNoAccount | skippedNotLifecycle
  deriving DecidableEq, Repr

/-- What the correlation of an event does. -/
inductive Effect
  | leave (outcome : Outcome)
  | ambiguous
  /-- The event is marked as correlated with a withdrawal that stays as it is. -/
  | join (withdrawal : ℕ)
  /-- A withdrawal is saved, and the event marked as correlated. -/
  | save (withdrawal : ℕ) (row : Withdrawal) (outcome : Outcome)
  | create (row : Withdrawal)
  deriving DecidableEq, Repr

def correlateByReference (pk : ℕ) (event : BrokerEvent) (target : WithdrawalStatus) (now : ℤ)
    (withdrawals : Table Withdrawal) : Effect :=
  match findByReference event withdrawals with
  | some (w, row) => .save w (applyEvent pk event target .referenceId row) .reference
  | none =>
    let candidates :=
      if event.amount.isSome ∧ event.currency ≠ "" then heuristicCandidates event withdrawals else []
    match candidates with
    | [(w, row)] =>
      -- adopted: it takes the reference over
      let adopted := { row with brokerReferenceId := event.brokerReferenceId }
      .save w (applyEvent pk event target .referenceId adopted) .reference
    | _ => .create (createByReference pk event target now)

def correlateByHeuristic (pk : ℕ) (event : BrokerEvent) (target : WithdrawalStatus) (now : ℤ)
    (observations : List BrokerMessageObservation) (withdrawals : Table Withdrawal) : Effect :=
  if event.eventType = .withdrawalRequested then
    match reflessSiblingWithdrawal pk event observations withdrawals with
    | some w => .join w
    | none => .create (createHeuristic pk event target now)
  else if event.amount.isNone ∨ event.currency = "" then .leave .unresolved
  else
    match heuristicCandidates event withdrawals with
    | [(w, row)] => .save w (applyEvent pk event target .heuristic row) .heuristic
    | _ :: _ :: _ => .ambiguous
    | [] =>
      if event.eventType = .withdrawalConfirmationRequired ∨ event.eventType = .withdrawalConfirmed then
        .create (createHeuristic pk event target now)
      else .leave .unresolved

/-- What has happened to an event, and in which category it was then; the program only counts the
outcomes. -/
structure CorrelationResult where
  event : ℕ
  outcome : Outcome
  withdrawal : Option ℕ
  category : TransactionCategory
  deriving DecidableEq, Repr

structure State where
  events : Table BrokerEvent
  withdrawals : Table Withdrawal := Table.empty
  observations : List BrokerMessageObservation := []
  results : List CorrelationResult := []

def correlateEvent (now : ℤ) (pk : ℕ) (event : BrokerEvent) (s : State) : Effect :=
  if event.effectiveTransactionCategory ≠ .externalWithdrawal then .leave .skippedNotExternal
  else if event.tradingAccount.isNone ∧ event.owner.isNone then .leave .skippedNoAccount
  else
    match statusForEvent event.eventType with
    | none => .leave .skippedNotLifecycle
    | some target =>
      if event.correlationStatus = .correlated then .leave .already
      else if event.brokerReferenceId ≠ "" then
        correlateByReference pk event target now s.withdrawals
      else correlateByHeuristic pk event target now s.observations s.withdrawals

def advanceOnly (pk : ℕ) (event : BrokerEvent) (target : WithdrawalStatus) (outcome : Outcome) (s : State) :
    Effect :=
  if event.brokerReferenceId = "" then .leave .unresolved
  else if event.tradingAccount.isNone ∧ event.owner.isNone then .leave .skippedNoAccount
  else if event.correlationStatus = .correlated then .leave .already
  else
    match findByReference event s.withdrawals with
    | none => .leave .unresolved
    | some (w, row) =>
      .save w (applyEvent pk event target (row.correlationMethod.getD .referenceId) row) outcome

def correlateCompletionEvent (pk : ℕ) (event : BrokerEvent) (s : State) : Effect :=
  if statusForEvent event.eventType ≠ some .completed then .leave .skippedNotLifecycle
  else advanceOnly pk event .completed .completionAdvanced s

def correlateNeutralAdvanceEvent (pk : ℕ) (event : BrokerEvent) (s : State) : Effect :=
  match statusForEvent event.eventType with
  | none => .leave .skippedNotLifecycle
  | some target => advanceOnly pk event target .advanced s

def BrokerEvent.mark (status : CorrelationStatus) (event : BrokerEvent) : BrokerEvent :=
  { event with correlationStatus := status }

/-- The writes of a correlation. -/
def Effect.perform (pk : ℕ) (event : BrokerEvent) (s : State) : Effect → State
  | .leave outcome =>
    { s with results := s.results ++ [⟨pk, outcome, none, event.effectiveTransactionCategory⟩] }
  | .ambiguous =>
    { s with
      events := s.events.modify pk (BrokerEvent.mark .ambiguous)
      results := s.results ++ [⟨pk, .ambiguous, none, event.effectiveTransactionCategory⟩] }
  | .join w =>
    { s with
      events := s.events.modify pk (BrokerEvent.mark .correlated)
      results := s.results ++ [⟨pk, .crossInbox, some w, event.effectiveTransactionCategory⟩] }
  | .save w row outcome =>
    { s with
      events := s.events.modify pk (BrokerEvent.mark .correlated)
      withdrawals := s.withdrawals.modify w fun _ => row
      results := s.results ++ [⟨pk, outcome, some w, event.effectiveTransactionCategory⟩] }
  | .create row =>
    let w := s.withdrawals.fresh
    { s with
      events := s.events.modify pk (BrokerEvent.mark .correlated)
      withdrawals := s.withdrawals.insert w row
      results := s.results ++ [⟨pk, .created, some w, event.effectiveTransactionCategory⟩] }

/-! ### Passes -/

inductive Pass
  /-- Events of external withdrawals: create and advance. -/
  | external
  | neutralAdvance
  /-- Completions that are not of external withdrawals: advance only. -/
  | completion
  deriving DecidableEq, Repr

def Pass.effect (pass : Pass) (now : ℤ) (pk : ℕ) (event : BrokerEvent) (s : State) : Effect :=
  match pass with
  | .external => correlateEvent now pk event s
  | .neutralAdvance => correlateNeutralAdvanceEvent pk event s
  | .completion => correlateCompletionEvent pk event s

def correlate (pass : Pass) (now : ℤ) (pk : ℕ) (s : State) : State :=
  match s.events.get pk with
  | none => s
  | some event => (pass.effect now pk event s).perform pk event s

def Pass.takes (pass : Pass) (event : BrokerEvent) : Bool :=
  match pass with
  | .external =>
    event.effectiveTransactionCategory = .externalWithdrawal && event.correlationStatus ≠ .correlated
  | .neutralAdvance =>
    (match statusForEvent event.eventType with
      | none | some .requested | some .completed => false
      | _ => true)
    && event.brokerReferenceId ≠ "" && event.correlationStatus ≠ .correlated
    && event.effectiveTransactionCategory = .unknown
  | .completion =>
    event.eventType = .withdrawalCompleted && event.brokerReferenceId ≠ ""
    && event.correlationStatus = .unresolved
    && event.effectiveTransactionCategory ≠ .externalWithdrawal

def Pass.select (pass : Pass) (limit : Option ℕ) (s : State) : List ℕ :=
  let ids := ((s.events.filter fun _ event => pass.takes event).map Prod.fst).insertionSort (· ≤ ·)
  match limit with
  | none => ids
  | some n => ids.take n

/-- Correlate events one after the other. -/
def drain (pass : Pass) (now : ℕ → ℤ) (ids : List ℕ) (s : State) : State :=
  ids.foldl (fun s pk => correlate pass (now pk) pk s) s

def Pass.run (pass : Pass) (limit : Option ℕ) (now : ℕ → ℤ) (s : State) : State :=
  drain pass now (pass.select limit s) s

/-- Correlate all events that are not yet correlated, as far as the limit of each pass goes. -/
def runCorrelation (limit : Option ℕ) (now : ℕ → ℤ) (s : State) : State :=
  Pass.completion.run limit now (Pass.neutralAdvance.run limit now (Pass.external.run limit now s))

/-! ### Runs -/

/-- What can happen next. -/
inductive Action
  | arrive (event : BrokerEvent)
  /-- A delivery is recorded. -/
  | observe (observation : BrokerMessageObservation)
  /-- The category of an event is derived again. -/
  | revise (pk : ℕ) (category : TransactionCategory)
  /-- The correlation of one event is called. -/
  | correlate (pass : Pass) (now : ℤ) (pk : ℕ)
  /-- All events are correlated, as far as the limit goes. -/
  | run (limit : Option ℕ) (now : ℕ → ℤ)

def BrokerEvent.revise (category : TransactionCategory) (event : BrokerEvent) : BrokerEvent :=
  { event with classificationRevisions := event.classificationRevisions ++ [category] }

def step (s : State) : Action → State
  | .arrive event =>
    let events := s.events.insert s.events.fresh { event with correlationStatus := .unresolved }
    { s with events := events }
  | .observe observation => { s with observations := s.observations ++ [observation] }
  | .revise pk category => { s with events := s.events.modify pk (BrokerEvent.revise category) }
  | .correlate pass now pk => BrokerIntelligence.correlate pass now pk s
  | .run limit now => runCorrelation limit now s

def start (events : Table BrokerEvent) (observations : List BrokerMessageObservation) : State where
  events := events
  observations := observations

end BrokerIntelligence
end GuvFX
