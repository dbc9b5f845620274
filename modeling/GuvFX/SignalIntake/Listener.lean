/-
# The listener: live messages, and catching up with a chat

A pass of the catch-up reads a chat page by page, from the checkpoint that is stored with the provider,
and has each message acquired like a live one.  It stops when the chat is exhausted, or when a page, a
message or a bound fails it.  Three positions are kept apart: the floor, past everything retrieved; the
earliest retrieval that no genuine row accounts for; and the checkpoint, which follows the accounted
retrievals below that one and is stored after each page.

The system has the calls of live messages, one pass with its own call in the slot of number zero, the
chats, to which messages are added and in which they are edited, and an operator who arms and pauses
providers.  Everything in memory can be lost at any moment.
-/
import GuvFX.Lib.Runs
import GuvFX.SignalIntake.Acquisition

namespace GuvFX
namespace SignalIntake

/-! ### Chats -/

def Message.number (message : Message) : ℤ := (message.id : ℕ)

structure Chat where
  messages : List Message
  ascending : messages.Pairwise fun m m' => m.number < m'.number

namespace Chat

def newest (chat : Chat) : ℤ := (chat.messages.getLast?.map Message.number).getD 0

/-- A new message; numbers only go up. -/
def post (chat : Chat) (message : Message) : Chat :=
  if h : ∀ m ∈ chat.messages, m.number < message.number then
    ⟨chat.messages ++ [message], List.pairwise_append.mpr ⟨chat.ascending, List.pairwise_singleton _ _,
      fun m hm m' hm' => List.mem_singleton.mp hm' ▸ h m hm⟩⟩
  else chat

def edit (chat : Chat) (message : Message) : Chat where
  messages := chat.messages.map fun m => if m.id = message.id then message else m
  ascending := by
    refine List.pairwise_map.mpr (chat.ascending.imp fun {m m'} h => ?_)
    have hnumber : ∀ m : Message, (if m.id = message.id then message else m).number = m.number := by
      intro m
      split_ifs with hid
      · rw [Message.number, Message.number, hid]
      · rfl
    rwa [hnumber, hnumber]

end Chat

/-! ### One pass -/

inductive CatchupStatus
  | complete | incompleteCeiling | incompleteError
  deriving DecidableEq, Repr

/-- The summary of a pass. -/
structure CatchupResult where
  provider : String
  chatId : String
  status : CatchupStatus := .complete
  fromCheckpoint : ℤ
  checkpoint : ℤ
  lastProcessedId : ℤ
  retrievalPosition : ℤ
  /-- The earliest unaccounted retrieval, zero when there is none. -/
  unaccountedFloor : ℤ := 0
  pages : ℕ := 0
  retrieved : ℕ := 0
  ignored : ℕ := 0
  newlyAcquired : ℕ := 0
  duplicates : ℕ := 0
  stale : ℕ := 0
  nonGenuine : ℕ := 0
  tradeableApprovals : ℕ := 0
  error : String := ""
  deriving DecidableEq, Repr

def CatchupResult.durablyComplete (res : CatchupResult) : Bool :=
  res.status = .complete && res.unaccountedFloor = 0

/-- What the processing of the messages of a page changes. -/
structure Progress where
  floor : ℤ
  checkpoint : ℤ
  seen : List ℤ
  res : CatchupResult
  deriving DecidableEq, Repr

/-- The counters after a message. -/
def CatchupResult.count (res : CatchupResult) (seen : List ℤ) (rid : ℤ) (tBefore : ℤ)
    (acq : Option AcquiredMessage) : CatchupResult :=
  match acq with
  | none => { res with retrieved := res.retrieved + 1, ignored := res.ignored + 1 }
  | some acq =>
    let dup := rid ∈ seen ∨ acq.acquiredAt < tBefore
    { res with
      retrieved := res.retrieved + 1
      nonGenuine := res.nonGenuine + if acq.key.nonGenuine then 1 else 0
      duplicates := res.duplicates + if dup then 1 else 0
      newlyAcquired := res.newlyAcquired + if dup then 0 else 1
      stale := res.stale + if ¬ dup ∧ acq.outcome = .stale then 1 else 0
      tradeableApprovals := res.tradeableApprovals +
        if ¬ dup ∧ acq.outcome = .intaken ∧ acq.approval.isSome then 1 else 0 }

def accounted (acq : Option AcquiredMessage) : Bool := acq.any fun row => !row.key.nonGenuine

def unaccountedAfter (unaccountedFloor rid : ℤ) (acq : Option AcquiredMessage) : ℤ :=
  if !accounted acq ∧ (unaccountedFloor = 0 ∨ rid < unaccountedFloor) then rid else unaccountedFloor

/-- Process one retrieved message, whose acquisition has returned `acq`. -/
def Progress.account (g : Progress) (rid : ℤ) (tBefore : ℤ) (acq : Option AcquiredMessage) :
    Progress :=
  let res := g.res.count g.seen rid tBefore acq
  let unaccountedFloor := unaccountedAfter res.unaccountedFloor rid acq
  { floor := if g.floor < rid then rid else g.floor
    checkpoint :=
      if accounted acq ∧ g.checkpoint < rid ∧ (unaccountedFloor = 0 ∨ rid < unaccountedFloor) then rid
      else g.checkpoint
    seen := rid :: g.seen
    res := { res with
      unaccountedFloor := unaccountedFloor
      retrievalPosition := if res.retrievalPosition < rid then rid else res.retrievalPosition } }

inductive PassPhase
  | looping
  /-- In a page of so many messages: the ones that are left, what the page has changed, and the time at
  which the acquisition of the first of them began, if it has. -/
  | processing (pageLen : ℕ) (rest : List Message) (floor checkpoint : ℤ) (waiting : Option ℤ)
  | persisting (pageLen : ℕ)
  | finished
  deriving DecidableEq, Repr

structure Pass where
  provider : SignalProvider
  chat : String
  dryRun : Bool
  pageSize : ℕ
  maxPages : ℕ
  deadline : ℤ
  floor : ℤ
  checkpoint : ℤ
  seen : List ℤ
  res : CatchupResult
  phase : PassPhase
  /-- The newest message at the last fetch; the program does not keep it. -/
  horizon : ℤ
  deriving DecidableEq, Repr

def catchupPageSize : ℕ := 200
def catchupMaxPages : ℕ := 500
def catchupTimeBudget : ℕ := 300
def catchupFloodwaitMaxWaits : ℕ := 3
def catchupFloodwaitMaxSingle : ℕ := 300

def bound (given : Option ℤ) (default : ℕ) : ℕ :=
  match given with
  | none => default
  | some n => if 0 < n then n.toNat else default

/-- How an attempt to fetch a page ends.  A flood wait comes with the seconds that the server asks for,
if they can be read, and the time. -/
inductive Attempt
  | fetched
  | floodWait (seconds : Option ℤ) (clock : ℤ)
  | failed (error : String)
  deriving DecidableEq, Repr

/-- Fetch, waiting out the flood waits within the bounds; the result is the error, if there is one. -/
def floodwait (deadline : ℤ) : ℕ → List Attempt → Option String
  | _, .fetched :: _ => none
  | _, .failed error :: _ => some error
  | waits, .floodWait seconds clock :: rest =>
    let requested := max (seconds.getD 60) 0
    if catchupFloodwaitMaxWaits < waits + 1 then some "FloodWaitError"
    else if catchupFloodwaitMaxSingle < requested then some "FloodWaitError"
    else if deadline < clock + requested then some "FloodWaitError"
    else floodwait deadline (waits + 1) rest
  | _, [] => some "ConnectionError"

def fetchPage (chat : Chat) (minId : ℤ) (limit : ℕ) : List Message :=
  (chat.messages.filter fun m => minId < m.number).take limit

/-! ### The system -/

structure State where
  ledger : Ledger
  chats : String → Chat
  calls : ℕ → Option Call := fun _ => none
  pass : Option Pass := none

/-- What can happen next. -/
inductive Action
  /-- Start a pass over a chat, for the provider of the chat. -/
  | catchUp (chat : String) (pageSize maxPages timeBudget : Option ℤ) (dryRun : Bool) (clock : ℤ)
  /-- The next step of the pass. -/
  | advance (attempts : List Attempt) (fault : Option Fault) (clock : ℤ)
  | deliver (k : ℕ) (message : Message) (clock : ℤ)
  /-- The next step of a call; the call of the pass has the number zero. -/
  | acquire (k : ℕ) (fault : Option Fault) (clock : ℤ)
  | die (k : ℕ)
  /-- The process dies. -/
  | crash
  | setStatus (slug : String) (status : ProviderStatus)
  | post (chat : String) (message : Message)
  | edit (chat : String) (message : Message)
  deriving DecidableEq, Repr

def setCall (calls : ℕ → Option Call) (k : ℕ) (call : Option Call) : ℕ → Option Call :=
  fun k' => if k' = k then call else calls k'

lemma setCall_self (calls : ℕ → Option Call) (k : ℕ) (call : Option Call) :
    setCall calls k call k = call := if_pos rfl

lemma setCall_of_ne (calls : ℕ → Option Call) {k k' : ℕ} (call : Option Call) (h : k' ≠ k) :
    setCall calls k call k' = calls k' := if_neg h

def setChat (chats : String → Chat) (c : String) (chat : Chat) : String → Chat :=
  fun c' => if c' = c then chat else chats c'

def Pass.stop (pass : Pass) (status : CatchupStatus) (error : String) : Pass :=
  { pass with
    phase := .finished
    res := { pass.res with
      status := status
      error := error } }

/-- The pass after the first of the messages that are left. -/
def Pass.account (pass : Pass) (pageLen : ℕ) (raw : Message) (rest : List Message)
    (floor checkpoint tBefore : ℤ) (acq : Option AcquiredMessage) : Pass :=
  let g := (Progress.mk floor checkpoint pass.seen pass.res).account raw.number tBefore acq
  { pass with
    seen := g.seen
    res := g.res
    phase := .processing pageLen rest g.floor g.checkpoint none }

def SignalProvider.checkpoint (provider : SignalProvider) : ℤ :=
  provider.catchupCheckpointMessageId.getD 0

def SignalProvider.setCheckpoint (checkpoint : ℤ) (provider : SignalProvider) : SignalProvider :=
  { provider with catchupCheckpointMessageId := some checkpoint }

lemma SignalProvider.slug_setCheckpoint (checkpoint : ℤ) (provider : SignalProvider) :
    (setCheckpoint checkpoint provider).slug = provider.slug := rfl

def SignalProvider.setStatus (status : ProviderStatus) (provider : SignalProvider) : SignalProvider :=
  { provider with status := status }

lemma SignalProvider.slug_setStatus (status : ProviderStatus) (provider : SignalProvider) :
    (setStatus status provider).slug = provider.slug := rfl

def Ledger.modifyProvider (ledger : Ledger) (slug : String) (f : SignalProvider → SignalProvider)
    (hf : ∀ p, (f p).slug = p.slug) : Ledger :=
  { ledger with providers := ledger.providers.modify slug f hf }

def Pass.begin (provider : SignalProvider) (chat : String) (pageSize maxPages timeBudget : Option ℤ)
    (dryRun : Bool) (clock : ℤ) : Pass :=
  { provider := provider
    chat := chat
    dryRun := dryRun
    pageSize := bound pageSize catchupPageSize
    maxPages := bound maxPages catchupMaxPages
    deadline := clock + bound timeBudget catchupTimeBudget
    floor := provider.checkpoint
    checkpoint := provider.checkpoint
    seen := []
    res :=
      { provider := provider.slug
        chatId := provider.telegramChatId
        fromCheckpoint := provider.checkpoint
        checkpoint := provider.checkpoint
        lastProcessedId := provider.checkpoint
        retrievalPosition := provider.checkpoint }
    phase := .looping
    horizon := 0 }

/-- The top of the loop: the budget, the fetch of a page, and the ceiling. -/
def Pass.fetch (pass : Pass) (chat : Chat) (attempts : List Attempt) (clock : ℤ) : Pass :=
  if pass.deadline < clock then pass.stop .incompleteError "time_budget_exceeded"
  else match floodwait pass.deadline 0 attempts with
  | some error => pass.stop .incompleteError ("fetch:" ++ error)
  | none =>
    let page := (fetchPage chat pass.floor pass.pageSize).map fun m => { m with chatId := pass.chat }
    let pass := { pass with horizon := chat.newest }
    if page = [] then { pass with phase := .finished }
    else if pass.maxPages ≤ pass.res.pages then pass.stop .incompleteCeiling ""
    else
      { pass with
        res := { pass.res with pages := pass.res.pages + 1 }
        phase := .processing page.length page pass.floor pass.checkpoint none }

def Pass.pageDone (pass : Pass) (pageLen : ℕ) : Pass :=
  { pass with phase := if pageLen < pass.pageSize then .finished else .looping }

def advance (s : State) (pass : Pass) (attempts : List Attempt) (fault : Option Fault) (clock : ℤ) :
    State :=
  match pass.phase with
  | .finished => s
  | .looping => { s with pass := some (pass.fetch (s.chats pass.chat) attempts clock) }
  | .processing pageLen [] floor checkpoint _ =>
    { s with pass := some { pass with
        floor := floor
        checkpoint := checkpoint
        phase := .persisting pageLen } }
  | .processing pageLen (raw :: rest) floor checkpoint none =>
    if fault.isSome then { s with pass := some (pass.stop .incompleteError "process:DatabaseError") }
    else match s.ledger.providers.forChat raw.chatId with
    | none =>
      { s with pass := some (pass.account pageLen raw rest floor checkpoint clock none) }
    | some provider =>
      if pass.dryRun then
        { s with pass := some (pass.account pageLen raw rest floor checkpoint clock none) }
      else
        { s with
          calls := setCall s.calls 0 (some ⟨provider, raw, clock, .opening⟩)
          pass := some { pass with
            phase := .processing pageLen (raw :: rest) floor checkpoint (some clock) } }
  | .processing pageLen (raw :: rest) floor checkpoint (some tBefore) =>
    match (s.calls 0).map Call.phase with
    | some (.done acq) =>
      { s with
        calls := setCall s.calls 0 none
        pass := some (pass.account pageLen raw rest floor checkpoint tBefore (some acq)) }
    | some .raised =>
      { s with
        calls := setCall s.calls 0 none
        pass := some (pass.stop .incompleteError "process:DatabaseError") }
    | _ => s
  | .persisting pageLen =>
    if pass.res.checkpoint < pass.checkpoint then
      -- an error here leaves the whole pass
      if fault.isSome then { s with pass := none }
      else
        let ledger := s.ledger.modifyProvider pass.provider.slug
          (SignalProvider.setCheckpoint pass.checkpoint)
          (SignalProvider.slug_setCheckpoint pass.checkpoint)
        { s with
          ledger := ledger
          pass := some ({ pass with
            provider := pass.provider.setCheckpoint pass.checkpoint
            res := { pass.res with
              checkpoint := pass.checkpoint
              lastProcessedId := pass.checkpoint } }.pageDone pageLen) }
    else { s with pass := some (pass.pageDone pageLen) }

def State.passing (s : State) : Bool := s.pass.any fun pass => pass.phase ≠ .finished

def step (env : Env) (s : State) (a : Action) : State :=
  match a with
  | .catchUp chat pageSize maxPages timeBudget dryRun clock =>
    if s.passing then s
    else match s.ledger.providers.forChat chat with
    | none => s
    | some provider =>
      let pass := Pass.begin provider chat pageSize maxPages timeBudget dryRun clock
      { s with pass := some pass }
  | .advance attempts fault clock =>
    match s.pass with
    | none => s
    | some pass => advance s pass attempts fault clock
  | .deliver k message clock =>
    match s.ledger.providers.forChat message.chatId, s.calls (k + 1) with
    | some provider, none =>
      { s with calls := setCall s.calls (k + 1) (some ⟨provider, message, clock, .opening⟩) }
    | _, _ => s
  | .acquire k fault clock =>
    match s.calls k with
    | none => s
    | some call =>
      let out := callStep env s.ledger call fault clock
      { s with
        ledger := out.1
        calls := setCall s.calls k (some { call with phase := out.2 }) }
  | .die k => { s with calls := setCall s.calls (k + 1) none }
  | .crash => { s with
      calls := fun _ => none
      pass := none }
  | .setStatus slug status =>
    let ledger := s.ledger.modifyProvider slug (SignalProvider.setStatus status)
      (SignalProvider.slug_setStatus status)
    { s with ledger := ledger }
  | .post c message => { s with chats := setChat s.chats c ((s.chats c).post message) }
  | .edit c message => { s with chats := setChat s.chats c ((s.chats c).edit message) }

/-- The beginning: any store and any chats, nothing under way. -/
def start (ledger : Ledger) (chats : String → Chat) : State := { ledger := ledger, chats := chats }

end SignalIntake
end GuvFX
