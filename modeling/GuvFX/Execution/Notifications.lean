/-
# The dispatcher of notifications

A winning outcome has one notification candidate.  A pass of the dispatcher gives candidates that
have been processed for too long back for a retry, takes the candidates that wait, and works on them
one after the other: it claims the candidate, delivers it over its transport, records a transmission
in a transaction of its own, and writes the final status.  The passes run beside each other without a
common lock, and each of them can stop at any point.
-/
import Mathlib.Algebra.Order.Field.Rat
import Mathlib.Data.List.Sort
import GuvFX.Lib.Runs
import GuvFX.Lib.Table
import GuvFX.Lib.Text
import GuvFX.TradeCopier.Account

namespace GuvFX
namespace Notifications

/-! ### Records -/

inductive Status where
  | pending
  | processing
  | sent
  | failed
  | suppressed
  deriving DecidableEq, Repr

/-- The statuses from which a candidate is taken up. -/
def Status.retryable : Status → Bool
  | pending | failed => true
  | processing | sent | suppressed => false

/-- A candidate, with the two fields of its outcome record that a transport checks. -/
structure NotificationCandidate where
  outcome : String
  executionJobId : Option ℕ
  correlationId : String
  createdAt : Time
  status : Status := .pending
  updatedAt : Time
  deriving DecidableEq, Repr

inductive AttemptResult where
  | sent
  | failed
  deriving DecidableEq, Repr

/-- The audit of one attempt. -/
structure NotificationDelivery where
  candidate : ℕ
  transport : String
  result : AttemptResult
  transmitted : Bool
  attempt : ℕ
  correlationId : String
  detail : String
  providerMessageId : String
  deriving DecidableEq, Repr

/-- What a transport returns. -/
structure DeliveryResult where
  ok : Bool
  transmitted : Bool
  detail : String
  messageId : String := ""
  deriving DecidableEq, Repr

/-! ### The settings -/

structure Settings where
  dispatchEnabled : String := ""
  dispatchTransport : String := ""
  telegramBotToken : String := ""
  telegramChatId : String := ""
  deriving DecidableEq, Repr

def dispatchEnabled (settings : Settings) : Bool :=
  Text.casefold (Text.strip settings.dispatchEnabled) ∈ ["1", "true", "yes", "on"]

inductive Transport where
  | dryRun
  | real (token chatId : String)
  deriving DecidableEq, Repr

def Transport.name : Transport → String
  | dryRun => "telegram-dryrun"
  | real .. => "telegram-real"

def selectTransport (settings : Settings) : Transport :=
  if Text.casefold (Text.strip settings.dispatchTransport) ∈ ["real", "telegram-real", "telegram"]
  then .real settings.telegramBotToken settings.telegramChatId
  else .dryRun

/-! ### The delivery -/

def failedResult (detail : String) : DeliveryResult := ⟨false, false, detail, ""⟩

/-- What a transport returns before it sends; nothing when it goes on to send.  The belt is the
answer to whether the candidate has been transmitted already, where the query succeeds. -/
def beforeSend (transport : Transport) (candidate : NotificationCandidate) (belt : Option Bool) :
    Option DeliveryResult :=
  match transport with
  | .dryRun => some ⟨true, false, "dry-run: rendered, not transmitted", ""⟩
  | .real token chatId =>
    if Text.upper candidate.outcome ≠ "WIN" then
      some (failedResult ("refused non-WIN outcome (" ++ candidate.outcome ++ ")"))
    else if candidate.executionJobId = none then
      some (failedResult "refused: no verified GuvFX execution link")
    else if token = "" ∨ chatId = "" then
      some (failedResult "missing TELEGRAM_BOT_TOKEN / TELEGRAM_CHAT_ID")
    else if belt = some true then
      some ⟨true, false, "already transmitted (idempotent skip)", ""⟩
    else none

/-- How a send ends: the API accepts the card or the text; or the send is reported as failed, or the
transport raises, and the message went out or not. -/
inductive SendOutcome where
  | accepted (card : Bool) (messageId : String)
  | failed (wentOut : Bool) (detail : String)
  | raised (wentOut : Bool)
  deriving DecidableEq, Repr

namespace SendOutcome

/-- The message is in the channel. -/
def transmitted : SendOutcome → Bool
  | accepted .. => true
  | failed wentOut _ => wentOut
  | raised wentOut => wentOut

/-- What the transport returns; nothing when it raises. -/
def result : SendOutcome → Option DeliveryResult
  | accepted card messageId =>
    some ⟨true, true, "sent " ++ (if card then "card" else "text-fallback") ++
      " to stakeholder review channel", messageId⟩
  | failed _ detail => some (failedResult detail)
  | raised _ => none

end SendOutcome

def isTransmitted (result : Option DeliveryResult) : Bool := result.any (·.transmitted)

def isOk (result : Option DeliveryResult) : Bool := result.any (·.ok)

def finalStatus (result : Option DeliveryResult) : Status :=
  if isOk result then .sent else .failed

/-! ### The passes -/

structure Counts where
  enabled : Bool
  claimed : ℕ
  sent : ℕ
  failed : ℕ
  skipped : ℕ
  reaped : ℕ
  deriving DecidableEq, Repr

/-- How far a pass has come with its candidate. -/
inductive Stage where
  | claimed
  | prepared (candidate : NotificationCandidate) (attempt : ℕ)
  /-- The gates are passed. -/
  | sending (candidate : NotificationCandidate) (attempt : ℕ)
  | returned (candidate : NotificationCandidate) (attempt : ℕ) (result : Option DeliveryResult)
  | recorded (candidate : NotificationCandidate) (attempt : ℕ) (result : Option DeliveryResult)
      (deliveryWritten : Bool)
  | unfinalized (transmitted : Bool)
  deriving DecidableEq, Repr

/-- A pass of the dispatcher. -/
inductive Runner where
  | reaped (transport : Transport) (counts : Counts) (limit : ℕ)
  | looping (transport : Transport) (counts : Counts) (ids : List ℕ)
  | working (transport : Transport) (counts : Counts) (ids : List ℕ) (cid : ℕ) (stage : Stage)
  | ended (counts : Counts)
  | crashed
  deriving DecidableEq, Repr

structure State where
  candidates : Table NotificationCandidate
  deliveries : List NotificationDelivery
  runners : Table Runner

inductive Action where
  | create (outcome : String) (executionJobId : Option ℕ) (correlationId : String) (now : Time)
  | dispatch (settings : Settings) (transport : Option Transport) (limit : ℕ) (now : Time)
  | select (p : ℕ)
  | claim (p : ℕ) (now : Time)
  | prepare (p : ℕ)
  | gate (p : ℕ) (renders beltReads : Bool)
  | send (p : ℕ) (outcome : SendOutcome)
  | persistTransmission (p : ℕ) (succeeds : Bool)
  | finalizeResult (p : ℕ) (succeeds : Bool) (now : Time)
  | repair (p : ℕ) (succeeds : Bool) (now : Time)
  | crash (p : ℕ)
  deriving DecidableEq

def processingTimeoutSeconds : Time := 300

def isStuck (now : Time) (candidate : NotificationCandidate) : Bool :=
  candidate.status = .processing && candidate.updatedAt < now - processingTimeoutSeconds

def reapStuckProcessing (candidates : Table NotificationCandidate) (now : Time) :
    Table NotificationCandidate :=
  candidates.map fun c => if isStuck now c then { c with status := .failed, updatedAt := now } else c

def waitingIds (candidates : Table NotificationCandidate) (limit : ℕ) : List ℕ :=
  (((candidates.filter fun _ c => c.status.retryable).insertionSort fun e e' =>
    e.2.createdAt < e'.2.createdAt ∨ e.2.createdAt = e'.2.createdAt ∧ e.1 ≤ e'.1).map Prod.fst).take
    limit

def alreadyTransmitted (deliveries : List NotificationDelivery) (cid : ℕ) : Bool :=
  deliveries.any fun d => d.candidate = cid && d.transmitted

def transmissionRow (cid : ℕ) (candidate : NotificationCandidate) (transport : Transport)
    (attempt : ℕ) (result : DeliveryResult) : NotificationDelivery :=
  ⟨cid, transport.name, .sent, true, attempt, candidate.correlationId, result.detail,
    result.messageId⟩

/-- The audit row of a result that has not been recorded yet. -/
def attemptRow (cid : ℕ) (candidate : NotificationCandidate) (transport : Transport)
    (attempt : ℕ) (result : Option DeliveryResult) : NotificationDelivery :=
  ⟨cid, transport.name, if isOk result then .sent else .failed, isTransmitted result, attempt,
    candidate.correlationId, (result.map (·.detail)).getD "transport raised",
    (result.map (·.messageId)).getD ""⟩

def setStatus (status : Status) (now : Time) (c : NotificationCandidate) : NotificationCandidate :=
  { c with status := status, updatedAt := now }

namespace State

/-- No candidate and no pass. -/
def initial : State := ⟨.empty, [], .empty⟩

def withRunner (s : State) (p : ℕ) (r : Runner) : State :=
  { s with runners := s.runners.modify p fun _ => r }

end State

def Counts.ofResult (counts : Counts) (success : Bool) : Counts :=
  if success then { counts with sent := counts.sent + 1 }
  else { counts with failed := counts.failed + 1 }

/-- A pass takes its next candidate, if it is still free to take. -/
def claimNext (s : State) (p : ℕ) (transport : Transport) (counts : Counts) (now : Time) :
    List ℕ → State
  | [] => s.withRunner p (.ended counts)
  | cid :: ids =>
    if (s.candidates.get cid).any (·.status.retryable) then
      { s.withRunner p (.working transport counts ids cid .claimed) with
        candidates := s.candidates.modify cid (setStatus .processing now) }
    else s.withRunner p (.looping transport { counts with skipped := counts.skipped + 1 } ids)

/-- The final status of the candidate, and the audit row of an attempt that has none yet. -/
def finalizeResult (s : State) (cid : ℕ) (candidate : NotificationCandidate)
    (transport : Transport) (attempt : ℕ) (result : Option DeliveryResult) (deliveryWritten : Bool)
    (now : Time) : State :=
  { s with
    candidates := s.candidates.modify cid (setStatus (finalStatus result) now)
    deliveries :=
      if deliveryWritten then s.deliveries
      else s.deliveries ++ [attemptRow cid candidate transport attempt result] }

def step (s : State) : Action → State
  | .create outcome executionJobId correlationId now =>
    { s with
      candidates := s.candidates.insert s.candidates.fresh
        ⟨outcome, executionJobId, correlationId, now, .pending, now⟩ }
  | .dispatch settings transport limit now =>
    if dispatchEnabled settings then
      let stuck := (s.candidates.filter fun _ c => isStuck now c).length
      { s with
        candidates := reapStuckProcessing s.candidates now
        runners := s.runners.insert s.runners.fresh
          (.reaped (transport.getD (selectTransport settings)) ⟨true, 0, 0, 0, 0, stuck⟩ limit) }
    else { s with runners := s.runners.insert s.runners.fresh (.ended ⟨false, 0, 0, 0, 0, 0⟩) }
  | .select p =>
    match s.runners.get p with
    | some (.reaped transport counts limit) =>
      s.withRunner p (.looping transport counts (waitingIds s.candidates limit))
    | _ => s
  | .claim p now =>
    match s.runners.get p with
    | some (.looping transport counts ids) => claimNext s p transport counts now ids
    | _ => s
  | .prepare p =>
    match s.runners.get p with
    | some (.working transport counts ids cid .claimed) =>
      match s.candidates.get cid with
      | some candidate =>
        let attempt := (s.deliveries.filter fun d => d.candidate = cid).length + 1
        s.withRunner p (.working transport counts ids cid (.prepared candidate attempt))
      | none => s.withRunner p .crashed
    | _ => s
  | .gate p renders beltReads =>
    match s.runners.get p with
    | some (.working transport counts ids cid (.prepared candidate attempt)) =>
      if renders then
        let belt := if beltReads then some (alreadyTransmitted s.deliveries cid) else none
        match beforeSend transport candidate belt with
        | some result =>
          s.withRunner p
            (.working transport counts ids cid (.returned candidate attempt (some result)))
        | none => s.withRunner p (.working transport counts ids cid (.sending candidate attempt))
      else
        s.withRunner p (.working transport counts ids cid (.returned candidate attempt none))
    | _ => s
  | .send p outcome =>
    match s.runners.get p with
    | some (.working transport counts ids cid (.sending candidate attempt)) =>
      s.withRunner p
        (.working transport counts ids cid (.returned candidate attempt outcome.result))
    | _ => s
  | .persistTransmission p succeeds =>
    match s.runners.get p with
    | some (.working transport counts ids cid (.returned candidate attempt result)) =>
      match result with
      | some r =>
        if r.transmitted ∧ succeeds then
          { s.withRunner p
              (.working transport counts ids cid (.recorded candidate attempt result true)) with
            deliveries := s.deliveries ++ [transmissionRow cid candidate transport attempt r] }
        else
          s.withRunner p
            (.working transport counts ids cid (.recorded candidate attempt result false))
      | none =>
        s.withRunner p (.working transport counts ids cid (.recorded candidate attempt none false))
    | _ => s
  | .finalizeResult p succeeds now =>
    match s.runners.get p with
    | some (.working transport counts ids cid (.recorded candidate attempt result written)) =>
      if succeeds then
        (finalizeResult s cid candidate transport attempt result written now).withRunner p
          (.looping transport
            ({ counts with claimed := counts.claimed + 1 }.ofResult (isOk result)) ids)
      else
        s.withRunner p (.working transport counts ids cid (.unfinalized (isTransmitted result)))
    | _ => s
  | .repair p succeeds now =>
    match s.runners.get p with
    | some (.working transport counts ids cid (.unfinalized transmitted)) =>
      let repaired := s.withRunner p (.looping transport (counts.ofResult transmitted) ids)
      if succeeds ∧ (s.candidates.get cid).any (·.status = .processing) then
        { repaired with
          candidates := s.candidates.modify cid
            (setStatus (if transmitted then .sent else .failed) now) }
      else repaired
    | _ => s
  | .crash p => s.withRunner p .crashed

example (s : State) (p : ℕ) (h : s.runners.get p = none) : step s (.select p) = s := by
  simp [step, h]

end Notifications
end GuvFX
