/-
# Acquiring a message of a provider

A message that a signal provider has posted is recorded in a ledger once, with an outcome; when it is
a tradeable signal of a live source, fresh and not expired, an approval is created for it first, in a
transaction of its own.  What is not trusted is recorded too, in a partition of the ledger of its own.

A call runs in steps, one for each read or write of the store, so that other calls come between them
and a call can die between any two.  The parser of a profile is a parameter, and so is the digest that
tells edits apart.  The records of updates and of commands that a message may also leave are left out:
nothing here reads them.
-/
import GuvFX.Lib.Rows
import GuvFX.Lib.Text
import Mathlib.Data.PNat.Defs

namespace GuvFX
namespace SignalIntake

/-! ### Rows -/

inductive ProviderStatus
  | onboarding | armed | paused | inactive | retired
  deriving DecidableEq, Repr

def ProviderStatus.value : ProviderStatus → String
  | onboarding => "ONBOARDING"
  | armed => "ARMED"
  | paused => "PAUSED"
  | inactive => "INACTIVE"
  | retired => "RETIRED"

structure SignalProvider where
  slug : String
  /-- The chat that the provider is trusted in; blank until it is verified. -/
  telegramChatId : String
  status : ProviderStatus
  parserProfile : String
  acquisitionWindowSeconds : ℕ := 600
  lastSignalAt : Option ℤ := none
  watermarkLastMessageId : String := ""
  /-- The number that the stored text stands for, and none when it stands for no number. -/
  catchupCheckpointMessageId : Option ℤ := none
  deriving DecidableEq, Repr

def SignalProvider.seen (mid : String) (now : ℤ) (provider : SignalProvider) : SignalProvider :=
  { provider with
    watermarkLastMessageId := mid
    lastSignalAt := some now }

def SignalProvider.isArmed (provider : SignalProvider) : Bool := provider.status = .armed

/-- A message as the listener hands it over.  Times are in microseconds, and the date is none when it
cannot be determined. -/
structure Message where
  id : ℕ+
  chatId : String
  text : String
  date : Option ℤ
  replyToMessageId : String := ""
  editDate : Bool := false
  media : Bool := false
  deriving DecidableEq, Repr

def Message.mid (message : Message) : String := toString (message.id : ℕ)

inductive Kind
  | signal | update | unknown
  deriving DecidableEq, Repr

/-- What a parser reads in a text.  The expiry is none when the text has none that can be read. -/
structure ParsedSignal where
  kind : Kind
  market : String := ""
  direction : String := ""
  entry : String := ""
  stopLoss : String := ""
  takeProfits : List String := []
  updateType : String := ""
  reason : String := ""
  expiry : Option ℤ := none
  deriving DecidableEq, Repr

def ParsedSignal.isTradeableShape (parsed : ParsedSignal) : Bool :=
  parsed.kind = .signal && parsed.market ≠ "" && parsed.direction ≠ "" && parsed.entry ≠ ""
    && parsed.stopLoss ≠ ""

/-- The code outside: the parser of a profile, which has no result for an unknown profile, and the
digest of an edited text. -/
structure Env where
  parse : String → String → String → Option ParsedSignal
  digest : String → String

/-- The source, the chat and the message that an approval is for. -/
structure ApprovalKey where
  source : String
  chatId : String
  messageId : String
  deriving DecidableEq, Repr

inductive ApprovalStatus
  | pendingApproval | quarantined
  deriving DecidableEq, Repr

structure PendingSignalApproval where
  key : ApprovalKey
  symbol : String := ""
  direction : String := ""
  entry : String := ""
  stopLoss : String := ""
  takeProfit : String := ""
  takeProfits : List String := []
  status : ApprovalStatus
  sourceEdited : Bool := false
  deriving DecidableEq, Repr

inductive Outcome
  | intaken | update | stale | quarantined | droppedNotArmed
  deriving DecidableEq, Repr

/-- The key of the ledger; records of an untrusted source have keys of their own. -/
structure AcquiredKey where
  provider : String
  chatId : String
  messageId : String
  nonGenuine : Bool
  deriving DecidableEq, Repr

/-- A row of the ledger. -/
structure AcquiredMessage where
  key : AcquiredKey
  outcome : Outcome
  reason : String
  telegramDate : Option ℤ
  acquiredAt : ℤ
  text : String
  editDate : Bool
  replyToMessageId : String
  media : Bool
  approval : Option ApprovalKey
  deriving DecidableEq, Repr

/-- The record of an edit of a message that has been acquired. -/
structure MessageAmendment where
  original : AcquiredKey
  editHash : String
  editedText : String
  reparsedKind : Kind
  changedFields : List (String × String × String)
  approvalReflagged : Bool
  amendedUpdate : Bool
  newApproval : Bool
  reason : String
  deriving DecidableEq, Repr

def MessageAmendment.key (amendment : MessageAmendment) : AcquiredKey × String :=
  (amendment.original, amendment.editHash)

/-- What is told to the receivers of a newly acquired message. -/
structure SignalAcquired where
  provider : String
  acquired : AcquiredKey
  approval : Option ApprovalKey
  outcome : Outcome
  deriving DecidableEq, Repr

structure Providers where
  rows : List SignalProvider
  sorted : (rows.map SignalProvider.slug).Pairwise (· < ·)

namespace Providers

/-- Change the provider of a slug by `f`, which keeps the slug. -/
def modify (t : Providers) (slug : String) (f : SignalProvider → SignalProvider)
    (hf : ∀ p, (f p).slug = p.slug) : Providers where
  rows := t.rows.map fun p => if p.slug = slug then f p else p
  sorted := by
    have hslug : (SignalProvider.slug ∘ fun p => if p.slug = slug then f p else p) =
        SignalProvider.slug := by
      funext p
      by_cases h : p.slug = slug
      · simp [h, hf]
      · simp [h]
    rw [List.map_map, hslug]
    exact t.sorted

def get (t : Providers) (slug : String) : Option SignalProvider :=
  t.rows.find? fun p => p.slug = slug

def forChat (t : Providers) (chatId : String) : Option SignalProvider :=
  t.rows.find? fun p => p.telegramChatId = chatId

end Providers

/-- The store. -/
structure Ledger where
  providers : Providers
  acquired : Rows AcquiredMessage AcquiredMessage.key := .empty
  approvals : Rows PendingSignalApproval PendingSignalApproval.key := .empty
  amendments : Rows MessageAmendment MessageAmendment.key := .empty
  notifications : List SignalAcquired := []

/-! ### Trust and freshness -/

/-- The window of a provider, in seconds; none configured means ten minutes. -/
def SignalProvider.window (provider : SignalProvider) : ℕ :=
  if provider.acquisitionWindowSeconds = 0 then 600 else provider.acquisitionWindowSeconds

def withinAcquisitionWindow (provider : SignalProvider) (tgDate : Option ℤ) (now : ℤ) : Bool :=
  match tgDate with
  | none => false
  | some date => now - date ≤ provider.window * 1000000

def signalExpired (parsed : ParsedSignal) (now : ℤ) : Bool :=
  match parsed.expiry with
  | none => false
  | some expiry => expiry ≤ now

def chatIdentityRefusal (provider : SignalProvider) (chatId : String) : Option String :=
  if !provider.isArmed then none
  else if provider.telegramChatId = "" then some "provider_chat_unconfigured"
  else if chatId = "" then some "chat_identity_missing"
  else if chatId ≠ provider.telegramChatId then some "chat_identity_mismatch"
  else none

/-! ### Approvals -/

def approvalFor (key : ApprovalKey) (parsed : ParsedSignal) (edited : Bool) : PendingSignalApproval :=
  if parsed.isTradeableShape then
    { key := key
      symbol := parsed.market
      direction := parsed.direction
      entry := parsed.entry
      stopLoss := parsed.stopLoss
      takeProfit := parsed.takeProfits.headD ""
      takeProfits := parsed.takeProfits
      status := .pendingApproval
      sourceEdited := edited }
  else { key := key, status := .quarantined }

def intakeParsed (ledger : Ledger) (key : ApprovalKey) (parsed : ParsedSignal) (edited : Bool) :
    Ledger :=
  { ledger with approvals := ledger.approvals.insertOrIgnore (approvalFor key parsed edited) }

/-- The tradeable values that differ between an approval and a new reading of its message. -/
def changedFields (approval : PendingSignalApproval) (parsed : ParsedSignal) :
    List (String × String × String) :=
  [("entry", approval.entry, parsed.entry), ("stop_loss", approval.stopLoss, parsed.stopLoss),
    ("take_profit", approval.takeProfit, parsed.takeProfits.headD "")].filter fun c => c.2.1 ≠ c.2.2

def flagged (key : ApprovalKey) (approval : PendingSignalApproval) : PendingSignalApproval :=
  if approval.key = key then { approval with sourceEdited := true } else approval

lemma key_flagged (key : ApprovalKey) (approval : PendingSignalApproval) :
    (flagged key approval).key = approval.key := by
  unfold flagged
  split <;> rfl

/-- Record an edit of an acquired message, once for each text: the approval is flagged when the values
have changed, and one is created when the message had none and the edit is a fresh signal. -/
def recordAmendment (env : Env) (ledger : Ledger) (provider : SignalProvider)
    (original : AcquiredMessage) (message : Message) (now : ℤ) : Ledger :=
  let editHash := env.digest message.text
  match ledger.amendments.get (original.key, editHash) with
  | some _ => ledger
  | none =>
    let parsed := env.parse provider.parserProfile message.text message.mid
    let approval := original.approval.bind ledger.approvals.get
    let isSignal := parsed.any ParsedSignal.isTradeableShape
    let isUpdate := parsed.any fun p => p.kind = .update
    let changed :=
      match approval, parsed with
      | some a, some p => if isSignal then changedFields a p else []
      | _, _ => []
    let newApproval := isSignal && approval.isNone
      && !(parsed.any fun p => signalExpired p now)
      && withinAcquisitionWindow provider message.date now
    let amendment : MessageAmendment :=
      { original := original.key
        editHash := editHash
        editedText := message.text
        reparsedKind := (parsed.map ParsedSignal.kind).getD .unknown
        changedFields := changed
        approvalReflagged := changed ≠ []
        amendedUpdate := isUpdate
        newApproval := newApproval
        reason := (parsed.map ParsedSignal.reason).getD "parse_error" }
    let recorded := { ledger with amendments := ledger.amendments.insertOrIgnore amendment }
    match approval, parsed with
    | some a, _ =>
      if changed ≠ [] && !a.sourceEdited then
        { recorded with approvals := recorded.approvals.modify (flagged a.key) (key_flagged a.key) }
      else recorded
    | none, some p =>
      if newApproval then
        intakeParsed recorded ⟨provider.slug, original.key.chatId, message.mid⟩ p true
      else recorded
    | none, none => recorded

/-! ### Classification -/

/-- What a message is taken for: it is recorded with an outcome and a reason, or is a signal whose
intake comes first. -/
inductive Verdict
  | recorded (outcome : Outcome) (reason : String)
  | tradeable (parsed : ParsedSignal) (edited : Bool)
  deriving DecidableEq, Repr

def classify (env : Env) (provider : SignalProvider) (message : Message) (now : ℤ) : Verdict :=
  if !provider.isArmed then
    .recorded .droppedNotArmed ("provider status=" ++ provider.status.value)
  else match message.date with
  | none => .recorded .stale "indeterminate_date"
  | some date =>
    if provider.window * 1000000 < now - date then
      .recorded .stale ("age>" ++ toString provider.window ++ "s")
    else if Text.strip message.text = "" then
      .recorded .quarantined (if message.media then "media_only" else "empty_text")
    else match env.parse provider.parserProfile message.text message.mid with
    | none => .recorded .quarantined "dispatch_error:UnknownParserProfile"
    | some parsed =>
      if parsed.isTradeableShape then
        if signalExpired parsed now then .recorded .stale "signal_expired"
        else .tradeable parsed message.editDate
      else if parsed.kind = .update then
        let base := if parsed.updateType = "" then "update" else parsed.updateType
        .recorded .update (if message.editDate then base ++ "_edited" else base)
      else
        .recorded .quarantined (if parsed.reason = "" then "not_tradeable" else parsed.reason)

/-! ### A call, step by step -/

/-- What an access to the store can run into: a unique constraint that another session has used since
the reads of this transaction, or any other error. -/
inductive Fault
  | race | error
  deriving DecidableEq, Repr

/-- Where a call stands. -/
inductive Phase
  | opening
  | amending (existing : AcquiredMessage)
  | classifying
  | intaking (parsed : ParsedSignal) (edited : Bool)
  | creating (parsed : ParsedSignal) (edited : Bool)
  | writing (outcome : Outcome) (reason : String) (approval : Option ApprovalKey)
  | bookkeeping (acq : AcquiredMessage)
  | notifying (acq : AcquiredMessage)
  | done (acq : AcquiredMessage)
  | raised
  deriving DecidableEq, Repr

/-- A call with the provider as it was loaded and the time at which the call began. -/
structure Call where
  provider : SignalProvider
  message : Message
  now : ℤ
  phase : Phase
  deriving DecidableEq, Repr

/-- Whether the source is not live, or not trusted in this chat. -/
def Call.nonGenuine (call : Call) : Bool :=
  !call.provider.isArmed || (chatIdentityRefusal call.provider call.message.chatId).isSome

def Call.key (call : Call) : AcquiredKey :=
  ⟨call.provider.slug, call.message.chatId, call.message.mid, call.nonGenuine⟩

def Call.approvalKey (call : Call) : ApprovalKey :=
  ⟨call.provider.slug, call.message.chatId, call.message.mid⟩

def Call.row (call : Call) (outcome : Outcome) (reason : String) (approval : Option ApprovalKey)
    (clock : ℤ) : AcquiredMessage :=
  { key := call.key
    outcome := outcome
    reason := reason
    telegramDate := call.message.date
    acquiredAt := clock
    text := call.message.text
    editDate := call.message.editDate
    replyToMessageId := call.message.replyToMessageId
    media := call.message.media
    approval := approval }

def reviewReason (edited : Bool) : String := if edited then "edited_review" else ""

def callStep (env : Env) (ledger : Ledger) (call : Call) (fault : Option Fault) (clock : ℤ) :
    Ledger × Phase :=
  match call.phase with
  | .opening =>
    if fault.isSome then (ledger, .raised)
    else match ledger.acquired.get call.key with
    | some existing =>
      -- an edit is looked at only for a live source in its own chat
      if call.provider.isArmed
          && (chatIdentityRefusal call.provider call.message.chatId).isNone
          && (call.message.editDate
            || Text.strip call.message.text ≠ Text.strip existing.text) then
        (ledger, .amending existing)
      else (ledger, .done existing)
    | none =>
      match chatIdentityRefusal call.provider call.message.chatId with
      | some refusal => (ledger, .writing .quarantined refusal none)
      | none => (ledger, .classifying)
  | .amending existing =>
    match fault with
    | some .error => (ledger, .raised)
    | some .race => (ledger, .done existing)
    | none =>
      (recordAmendment env ledger call.provider existing call.message call.now, .done existing)
  | .classifying =>
    if fault.isSome then (ledger, .writing .quarantined "dispatch_error:DatabaseError" none)
    else match classify env call.provider call.message call.now with
    | .recorded outcome reason => (ledger, .writing outcome reason none)
    | .tradeable parsed edited => (ledger, .intaking parsed edited)
  | .intaking parsed edited =>
    if fault.isSome then (ledger, .writing .quarantined "dispatch_error:DatabaseError" none)
    else match ledger.approvals.get call.approvalKey with
    | some _ => (ledger, .writing .intaken (reviewReason edited) (some call.approvalKey))
    | none => (ledger, .creating parsed edited)
  | .creating parsed edited =>
    if fault.isSome then (ledger, .writing .quarantined "dispatch_error:DatabaseError" none)
    else match ledger.approvals.insert (approvalFor call.approvalKey parsed edited) with
    -- the approval of another call was committed since the look-up
    | none => (ledger, .writing .quarantined "dispatch_error:IntegrityError" none)
    | some approvals =>
      ({ ledger with approvals := approvals },
        .writing .intaken (reviewReason edited) (some call.approvalKey))
  | .writing outcome reason approval =>
    if fault.isSome then (ledger, .raised)
    else
      let acq := call.row outcome reason approval clock
      match ledger.acquired.insert acq with
      | none =>
        match ledger.acquired.get call.key with
        | some existing => (ledger, .done existing)
        | none => (ledger, .raised)
      | some acquired =>
        ({ ledger with acquired := acquired },
          if call.nonGenuine then .notifying acq else .bookkeeping acq)
  | .bookkeeping acq =>
    if fault.isSome then (ledger, .raised)
    else
      let providers := ledger.providers.modify call.provider.slug
        (SignalProvider.seen call.message.mid call.now) fun _ => rfl
      ({ ledger with providers := providers }, .notifying acq)
  | .notifying acq =>
    -- a receiver that fails does not break the acquisition
    ({ ledger with notifications := ledger.notifications ++
        [⟨call.provider.slug, acq.key, acq.approval, acq.outcome⟩] }, .done acq)
  | .done acq => (ledger, .done acq)
  | .raised => (ledger, .raised)

end SignalIntake
end GuvFX
