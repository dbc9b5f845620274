/-
# The change of the levels of an open position

A job that moves the stop-loss and the take-profit of a position goes through three hands.  The
save of the job forces the identity of a hosted account into its payload.  The worker asks for the
fields it needs and sends them to the bridge of the account.  The bridge rounds the levels, compares
them with the position that it reads, and either answers at once or has the broker apply them.

The file models the three, and says what a success can be: the levels were left as they are because
the stop-loss was there already, or the broker has applied both of them.
-/
import GuvFX.Lib.Decimal
import GuvFX.Lib.Text
import GuvFX.TradeCopier.Account

namespace GuvFX
namespace ModifyPosition

open Decimal (quantizeEven)
open Text (strip)

/-! ### The identity of a hosted account -/

structure AccountProvisioning where
  windowsUsername : String
  /-- The status is `PROVISIONED`. -/
  provisioned : Bool
  isAdmin : Bool
  deriving DecidableEq, Repr

structure PinRecords where
  /-- `HOSTED_PERSISTENT_MT5_ENABLED` -/
  hostedPersistentMt5Enabled : Bool
  readinessProvider : ℕ → String
  provisioning : ℕ → Option AccountProvisioning

/-- The payload of a job that changes levels, as the worker reads it. -/
structure Payload where
  windowsUsername : Option String := none
  ticket : Option ℤ
  sl : Option ℚ
  tp : Option ℚ := none
  isDemo : Option Bool := none
  requireIdentityPin : Option Bool := none
  expectedLogin : Option String := none
  expectedServer : Option String := none
  deriving DecidableEq, Repr

def isHostedWorkspaceAccount (rec : PinRecords) (accountId : ℕ) : Bool :=
  rec.hostedPersistentMt5Enabled && rec.readinessProvider accountId == "persistent_workspace"

def hostedWindowsUsernameFor (rec : PinRecords) (accountId : ℕ) : String :=
  if isHostedWorkspaceAccount rec accountId then
    match rec.provisioning accountId with
    | some profile =>
      if profile.provisioned ∧ !profile.isAdmin then strip profile.windowsUsername else ""
    | none => ""
  else ""

/-- Merge the pin into a payload: the Windows user and the demand for a pin are forced, the other
values are those of the caller where there are any. -/
def injectIdentityPin (rec : PinRecords) (accountId : ℕ) (account : TradingAccount)
    (payload : Payload) : Payload :=
  if isHostedWorkspaceAccount rec accountId then
    { payload with
      windowsUsername := some (hostedWindowsUsernameFor rec accountId)
      requireIdentityPin := some true
      expectedLogin := some (payload.expectedLogin.getD (strip account.accountNumber))
      expectedServer := some (payload.expectedServer.getD
        (account.brokerServer.elim "" fun server => strip server.serverName))
      isDemo := some (payload.isDemo.getD account.isDemo) }
  else payload

/-! ### What the bridge reads -/

structure SymbolInfo where
  digits : Option ℕ
  point : Option ℚ
  tradeStopsLevel : Option ℤ
  tradeFreezeLevel : Option ℤ
  deriving DecidableEq, Repr

structure Tick where
  bid : ℚ
  ask : ℚ
  deriving DecidableEq, Repr

inductive PositionType where
  | buy
  | sell
  deriving DecidableEq, Repr

/-- An open position; a level that is `0` is no level. -/
structure Position where
  symbol : String
  type : PositionType
  sl : ℚ
  tp : ℚ
  magic : ℤ
  deriving DecidableEq, Repr

structure AccountInfo where
  login : String
  server : String
  tradeMode : ℤ
  deriving DecidableEq, Repr

structure Request where
  symbol : String
  position : ℤ
  sl : ℚ
  tp : ℚ
  magic : ℤ
  deriving DecidableEq, Repr

structure Answer where
  retcode : ℤ
  comment : String
  deriving DecidableEq, Repr

/-- The environment of the bridge. -/
structure PinEnv where
  /-- `MT5_REQUIRE_IDENTITY_PIN` -/
  requireIdentityPin : Bool
  /-- `MT5_EXPECTED_LOGIN` -/
  expectedLogin : String
  /-- `MT5_EXPECTED_SERVER` -/
  expectedServer : String
  deriving DecidableEq, Repr

/-- A terminal with the broker behind it, over the time of one request. -/
structure Terminal where
  installed : Bool
  initialized : Bool
  lastError : String
  account : Option AccountInfo
  /-- The position of the ticket, at the first read. -/
  position : Option Position
  info : Option SymbolInfo
  tick : Option Tick
  /-- The account and the connection, right before the request is sent. -/
  accountAtSend : Option AccountInfo
  connected : Option Bool
  env : PinEnv
  orderSend : Request → Option Answer
  /-- Is the position closed when it is read again? -/
  closedMeanwhile : Bool

structure StopsBand where
  bid : ℚ
  ask : ℚ
  minPoints : ℚ
  distPoints : ℚ
  stopsLevel : ℤ
  freezeLevel : ℤ
  deriving DecidableEq, Repr

structure Reply where
  ok : Bool
  error : Option String := none
  detail : Option String := none
  reason : Option String := none
  retryable : Bool := false
  ticket : Option ℤ := none
  currentSl : Option ℚ := none
  priorSl : Option ℚ := none
  requestedSl : Option ℚ := none
  verifiedSl : Option ℚ := none
  unchanged : Bool := false
  retcode : Option ℤ := none
  comment : Option String := none
  band : Option StopsBand := none
  alreadyClosed : Bool := false
  orderTransportRefused : Bool := false
  deriving DecidableEq, Repr

/-- A reply, with the position at the broker when it is given. -/
structure Outcome where
  reply : Reply
  position : Option Position
  deriving DecidableEq, Repr

/-! ### The identity gate of the bridge -/

structure Identity where
  requireIdentityPin : Bool
  expectedLogin : Option String
  expectedServer : Option String
  deriving DecidableEq, Repr

/-- Is the terminal logged in to the account that is expected?  A pin that is `none` or empty is
not asked for. -/
def evaluateMutationIdentity (acc : Option AccountInfo) (connected : Option Bool)
    (expectedLogin expectedServer : String) : Except String Unit :=
  match connected, acc with
  | none, _ => .error "terminal_info_unavailable"
  | some false, _ => .error "terminal_not_connected"
  | some true, none => .error "account_info_unavailable"
  | some true, some acc =>
    if acc.tradeMode ≠ 0 then .error "account_not_demo"
    else if expectedLogin ≠ "" ∧ acc.login ≠ expectedLogin then .error "account_login_mismatch"
    else if expectedServer ≠ "" ∧ acc.server ≠ expectedServer then .error "broker_server_mismatch"
    else .ok ()

/-- The identity gate right before a position is changed. -/
def verifyMutationIdentity (t : Terminal) (identity : Identity) : Except String Unit :=
  if identity.requireIdentityPin ∨ t.env.requireIdentityPin then
    let login := strip (identity.expectedLogin.getD "")
    let server := strip (identity.expectedServer.getD "")
    if login = "" ∨ server = "" then .error "identity_pin_required"
    else evaluateMutationIdentity t.accountAtSend t.connected login server
  else
    evaluateMutationIdentity t.accountAtSend t.connected (strip t.env.expectedLogin)
      (strip t.env.expectedServer)

/-! ### The bridge -/

def digitsOf (info : Option SymbolInfo) : ℕ := (info.bind (·.digits)).getD 5

def epsOf (digits : ℕ) : ℚ := 1 / 10 ^ digits / 2

/-- Would the new stop-loss increase the risk of the position? -/
def increasesRisk (pos : Position) (reqSl eps : ℚ) : Bool :=
  match pos.type with
  | .buy => pos.sl ≠ 0 ∧ reqSl < pos.sl - eps
  | .sell => pos.sl ≠ 0 ∧ pos.sl + eps < reqSl

/-- The band that the new stop-loss would lie in. -/
def withinStopsLevel (info : Option SymbolInfo) (tick : Option Tick) (pos : Position)
    (reqSl eps : ℚ) : Option StopsBand :=
  let point := (info.bind (·.point)).getD 0
  match tick with
  | none => none
  | some tick =>
    if 0 < point then
      let stopsLevel := max ((info.bind (·.tradeStopsLevel)).getD 0) 0
      let freezeLevel := max ((info.bind (·.tradeFreezeLevel)).getD 0) 0
      let spreadPoints := quantizeEven 0 ((tick.ask - tick.bid) / point)
      let minPoints := max (max (stopsLevel : ℚ) freezeLevel) (max spreadPoints 0)
      let dist :=
        match pos.type with
        | .buy => tick.bid - reqSl
        | .sell => reqSl - tick.ask
      if dist < minPoints * point - eps then
        some { bid := tick.bid, ask := tick.ask, minPoints, distPoints := dist / point
               stopsLevel, freezeLevel }
      else none
    else none

/-- The return code of a request that the broker has carried out. -/
def retcodeDone : ℤ := 10009

def Position.apply (pos : Position) (request : Request) : Position :=
  { pos with sl := request.sl, tp := request.tp }

def sendRequest (t : Terminal) (pos : Position) (request : Request) (eps : ℚ) : Outcome :=
  let still (pos : Position) : Option Position := if t.closedMeanwhile then none else some pos
  match t.orderSend request with
  | none =>
    { reply := { ok := false, error := some "order_send_none", detail := some t.lastError }
      position := still pos }
  | some answer =>
    if answer.retcode ≠ retcodeDone then
      if (still pos).isNone then
        { reply :=
            { ok := false, error := some "position_not_found"
              detail := some ("closed during modify; retcode=" ++ toString answer.retcode)
              ticket := some request.position }
          position := none }
      else
        { reply :=
            { ok := false, error := some "modify_rejected", retcode := some answer.retcode
              comment := some answer.comment }
          position := still pos }
    else
      let after := still (pos.apply request)
      let verifiedSl := after.map (·.sl)
      let verified := verifiedSl.any fun sl => |sl - request.sl| < eps
      { reply :=
          { ok := verified, ticket := some request.position, priorSl := some pos.sl
            requestedSl := some request.sl, verifiedSl, retcode := some answer.retcode
            comment := some answer.comment
            error := if verified then none else some "sl_not_verified" }
        position := after }

def modifyRead (t : Terminal) (ticket : ℤ) (sl : ℚ) (tp : Option ℚ) (identity : Identity)
    (pos : Position) : Outcome :=
  let refuse (reply : Reply) : Outcome := { reply, position := some pos }
  let targetTp := tp.getD pos.tp
  let digits := digitsOf t.info
  let reqSl := quantizeEven digits sl
  let reqTp := quantizeEven digits targetTp
  let eps := epsOf digits
  if |pos.sl - reqSl| < eps then
    refuse { ok := true, ticket := some ticket, priorSl := some pos.sl
             requestedSl := some reqSl, verifiedSl := some pos.sl, unchanged := true }
  else if increasesRisk pos reqSl eps then
    refuse { ok := false, error := some "would_increase_risk", currentSl := some pos.sl
             requestedSl := some reqSl }
  else
    match withinStopsLevel t.info t.tick pos reqSl eps with
    | some band =>
      refuse { ok := false, error := some "sl_within_stops_level", retryable := true
               ticket := some ticket, requestedSl := some reqSl, priorSl := some pos.sl
               band := some band }
    | none =>
      match verifyMutationIdentity t identity with
      | .error reason =>
        refuse { ok := false, error := some "identity_rejected", reason := some reason
                 ticket := some ticket }
      | .ok () =>
        sendRequest t pos
          { symbol := pos.symbol, position := ticket, sl := reqSl, tp := reqTp
            magic := pos.magic } eps

/-- The bridge: move the stop-loss of a position, and its take-profit where one is given. -/
def modifyPosition (t : Terminal) (ticket : ℤ) (sl : ℚ) (tp : Option ℚ) (identity : Identity) :
    Outcome :=
  let refuse (reply : Reply) : Outcome := { reply, position := t.position }
  if !t.installed then refuse { ok := false, error := some "mt5_not_installed" }
  else if !t.initialized then
    refuse { ok := false, error := some "mt5_init_failed", detail := some t.lastError }
  else
    match t.account with
    | none => refuse { ok := false, error := some "account_info_failed" }
    | some account =>
      if account.tradeMode ≠ 0 then refuse { ok := false, error := some "account_not_demo" }
      else
        match t.position with
        | none =>
          refuse { ok := false, error := some "position_not_found"
                   detail := some ("ticket=" ++ toString ticket) }
        | some pos => modifyRead t ticket sl tp identity pos

/-! ### The worker -/

inductive JobStatus where
  | success
  | failed
  deriving DecidableEq, Repr

/-- How the worker completes a job. -/
structure Completion where
  status : JobStatus
  result : Reply
  message : String
  deriving DecidableEq, Repr

/-- What the worker sends to the bridge. -/
structure AgentRequest where
  username : String
  ticket : ℤ
  sl : ℚ
  tp : Option ℚ
  identity : Identity
  deriving DecidableEq, Repr

def applyIdentityPin (payload : Payload) : Identity where
  requireIdentityPin := payload.requireIdentityPin.getD false
  expectedLogin := payload.expectedLogin
  expectedServer := payload.expectedServer

/-- The body that the worker sends, when no field of it is missing. -/
def agentRequest (payload : Payload) : Option AgentRequest :=
  match payload.windowsUsername, payload.ticket, payload.sl with
  | some username, some ticket, some sl =>
    if username ≠ "" ∧ ticket ≠ 0 then
      some { username, ticket, sl, tp := payload.tp, identity := applyIdentityPin payload }
    else none
  | _, _, _ => none

/-- The world of one job: its transport, the way to the bridge, and the terminal there. -/
structure World where
  /-- Why no bridge is resolved for the job, if none is. -/
  transportRefused : Option String
  replyLost : Option String
  terminal : Terminal

/-- The reply that reaches the worker, and the position at the broker. -/
def agentModify (w : World) (request : AgentRequest) : Outcome :=
  let out := modifyPosition w.terminal request.ticket request.sl request.tp request.identity
  match w.replyLost with
  | some error => { out with reply := { ok := false, error := some error } }
  | none => out

def completionOf (reply : Reply) : Completion :=
  if reply.ok then { status := .success, result := reply, message := "" }
  else if reply.error = some "position_not_found" then
    { status := .success, result := { reply with ok := true, alreadyClosed := true }, message := "" }
  else if reply.retryable then
    { status := .failed, result := reply
      message := "deferred: " ++ reply.error.getD "retryable" }
  else
    { status := .failed, result := reply
      message := "Modify failed: " ++ reply.error.getD "unknown_error" }

def missingFields : Completion where
  status := .failed
  result := { ok := false, reason := some "missing_payload_fields" }
  message := "MODIFY_POSITION requires windows_username, ticket, sl"

/-- The worker on a job that changes levels: how it completes the job, and the position at the
broker then. -/
def work (w : World) (payload : Payload) : Completion × Option Position :=
  match agentRequest payload with
  | none => (missingFields, w.terminal.position)
  | some request =>
    match w.transportRefused with
    | some reason =>
      ({ status := .failed
         result := { ok := false, orderTransportRefused := true, reason := some reason }
         message := "order transport unresolved: " ++ reason }, w.terminal.position)
    | none =>
      let out := agentModify w request
      (completionOf out.reply, out.position)

def Done (completion : Completion) : Prop :=
  completion.status = .success ∧ completion.result.alreadyClosed = false

instance (completion : Completion) : Decidable (Done completion) :=
  inferInstanceAs (Decidable (_ ∧ _))

/-! ### What a success says -/

section

variable {t : Terminal} {ticket : ℤ} {sl : ℚ} {tp : Option ℚ} {identity : Identity}

/-- Is the stop-loss of the position the requested one already, as the bridge compares them? -/
def nearly (info : Option SymbolInfo) (pos : Position) (sl : ℚ) : Prop :=
  |pos.sl - quantizeEven (digitsOf info) sl| < epsOf (digitsOf info)

instance (info : Option SymbolInfo) (pos : Position) (sl : ℚ) : Decidable (nearly info pos sl) :=
  inferInstanceAs (Decidable (_ < _))

/-- Is the move of the stop-loss one that the bridge refuses? -/
def riskier (info : Option SymbolInfo) (pos : Position) (sl : ℚ) : Bool :=
  increasesRisk pos (quantizeEven (digitsOf info) sl) (epsOf (digitsOf info))

/-- The levels that the bridge asks the broker for. -/
def requested (info : Option SymbolInfo) (pos : Position) (sl : ℚ) (tp : Option ℚ) : Position :=
  { pos with
    sl := quantizeEven (digitsOf info) sl
    tp := quantizeEven (digitsOf info) (tp.getD pos.tp) }

lemma epsOf_pos (digits : ℕ) : 0 < epsOf digits := by
  unfold epsOf
  positivity

lemma of_sendRequest_ok {pos : Position} {request : Request} {eps : ℚ}
    (h : (sendRequest t pos request eps).reply.ok = true) :
    (sendRequest t pos request eps).position = some (pos.apply request) := by
  unfold sendRequest at h ⊢
  cases hanswer : t.orderSend request with
  | none => simp [hanswer] at h
  | some answer =>
    by_cases hdone : answer.retcode = retcodeDone
    · cases hclosed : t.closedMeanwhile with
      | true => simp [hanswer, hdone, hclosed] at h
      | false => simp [hanswer, hdone, hclosed]
    · cases hclosed : t.closedMeanwhile with
      | true => simp [hanswer, hdone, hclosed] at h
      | false => simp [hanswer, hdone, hclosed] at h

lemma of_modifyRead_ok {pos : Position} (h : (modifyRead t ticket sl tp identity pos).reply.ok = true) :
    nearly t.info pos sl ∧ (modifyRead t ticket sl tp identity pos).position = some pos ∨
      ¬ nearly t.info pos sl ∧ riskier t.info pos sl = false ∧
        verifyMutationIdentity t identity = .ok () ∧
        (modifyRead t ticket sl tp identity pos).position = some (requested t.info pos sl tp) := by
  unfold modifyRead at h ⊢
  dsimp only at h ⊢
  by_cases hnear : nearly t.info pos sl
  · unfold nearly at hnear ⊢
    simp only [hnear]
    exact .inl ⟨trivial, rfl⟩
  · unfold nearly at hnear ⊢
    simp only [hnear] at h ⊢
    unfold riskier
    cases hrisk : increasesRisk pos (quantizeEven (digitsOf t.info) sl) (epsOf (digitsOf t.info)) with
    | true => simp [hrisk] at h
    | false =>
      refine .inr ⟨not_false, rfl, ?_⟩
      simp only [hrisk, if_false, Bool.false_eq_true] at h ⊢
      -- past the band and the identity gate, only the broker can make it a success
      cases hband : withinStopsLevel t.info t.tick pos (quantizeEven (digitsOf t.info) sl)
          (epsOf (digitsOf t.info)) with
      | some band => simp [hband] at h
      | none =>
        cases hidentity : verifyMutationIdentity t identity with
        | error reason => simp [hband, hidentity] at h
        | ok _ =>
          simp only [hband, hidentity] at h ⊢
          exact ⟨trivial, of_sendRequest_ok h⟩

/-- **What a success of the bridge is**: the stop-loss was nearly there and nothing was sent, or the
broker has applied both levels. -/
theorem of_modifyPosition_ok (h : (modifyPosition t ticket sl tp identity).reply.ok = true) :
    ∃ pos, t.position = some pos ∧
      (nearly t.info pos sl ∧ (modifyPosition t ticket sl tp identity).position = some pos ∨
        ¬ nearly t.info pos sl ∧ riskier t.info pos sl = false ∧
          verifyMutationIdentity t identity = .ok () ∧
          (modifyPosition t ticket sl tp identity).position
            = some (requested t.info pos sl tp)) := by
  unfold modifyPosition at h ⊢
  dsimp only at h ⊢
  split_ifs at h ⊢ with hinstalled hinitialized
  cases haccount : t.account with
  | none => simp [haccount] at h
  | some account =>
    simp only [haccount] at h ⊢
    split_ifs at h ⊢ with hdemo
    cases hposition : t.position with
    | none => simp [hposition] at h
    | some pos =>
      simp only [hposition] at h ⊢
      exact ⟨pos, rfl, of_modifyRead_ok h⟩

end

/-! ### What a completion says -/

section

variable {w : World} {payload : Payload}

/-- **A job is refused for a missing field exactly when its body cannot be made.** -/
theorem work_eq_missingFields_iff : (work w payload).1 = missingFields ↔
    agentRequest payload = none := by
  constructor
  · intro h
    by_contra hsome
    obtain ⟨request, hrequest⟩ := Option.ne_none_iff_exists'.mp hsome
    -- every other message begins in another way
    have hmessage := congrArg (fun c => c.message.toList.take 2) h
    simp only [work, hrequest, missingFields] at hmessage
    cases htransport : w.transportRefused with
    | some reason => simp [htransport] at hmessage
    | none =>
      simp only [htransport, completionOf] at hmessage
      split_ifs at hmessage with hok hgone hretry <;> simp at hmessage
  · intro h
    simp only [work, h]

lemma of_done {request : AgentRequest} (hrequest : agentRequest payload = some request)
    (h : Done (work w payload).1) :
    (modifyPosition w.terminal request.ticket request.sl request.tp request.identity).reply.ok = true ∧
      (work w payload).2
        = (modifyPosition w.terminal request.ticket request.sl request.tp
            request.identity).position := by
  obtain ⟨hstatus, hopen⟩ := h
  simp only [work, hrequest] at hstatus hopen ⊢
  cases htransport : w.transportRefused with
  | some reason => simp [htransport] at hstatus
  | none =>
    simp only [htransport, completionOf] at hstatus hopen ⊢
    cases hlost : w.replyLost with
    | some error =>
      simp only [agentModify, hlost] at hstatus hopen
      split_ifs at hstatus hopen <;> simp_all
    | none =>
      simp only [agentModify, hlost] at hstatus hopen ⊢
      split_ifs at hstatus hopen with hok hgone hretry
      · exact ⟨hok, trivial⟩

/-- A world in which nothing stands in the way of the request: the terminal is logged in to the
account of the pin, and the broker carries out what it is asked for. -/
def obliging (payload : Payload) (info : Option SymbolInfo) (position : Option Position) : World where
  transportRefused := none
  replyLost := none
  terminal :=
    { installed := true
      initialized := true
      lastError := ""
      account := some { login := "", server := "", tradeMode := 0 }
      position := position
      info := info
      tick := none
      accountAtSend := some
        { login := strip (payload.expectedLogin.getD "")
          server := strip (payload.expectedServer.getD ""), tradeMode := 0 }
      connected := some true
      env := { requireIdentityPin := false, expectedLogin := "", expectedServer := "" }
      orderSend := fun _ => some { retcode := retcodeDone, comment := "" }
      closedMeanwhile := false }

/-- The pin of a payload names a login and a server. -/
def Pinned (payload : Payload) : Prop :=
  strip (payload.expectedLogin.getD "") ≠ "" ∧ strip (payload.expectedServer.getD "") ≠ ""

variable {request : AgentRequest} {info : Option SymbolInfo} {pos : Position}

lemma pinned_of_verified {t : Terminal} (hrequired : payload.requireIdentityPin = some true)
    (h : verifyMutationIdentity t (applyIdentityPin payload) = .ok ()) : Pinned payload := by
  unfold verifyMutationIdentity at h
  rw [if_pos (by simp [applyIdentityPin, hrequired])] at h
  dsimp only at h
  split_ifs at h with hempty
  rw [not_or] at hempty
  exact hempty

lemma identity_of_agentRequest (hrequest : agentRequest payload = some request) :
    request.identity = applyIdentityPin payload := by
  unfold agentRequest at hrequest
  split at hrequest
  · split_ifs at hrequest
    obtain rfl := Option.some.inj hrequest
    rfl
  · cases hrequest

lemma done_obliging_of_nearly (hrequest : agentRequest payload = some request)
    (hnear : nearly info pos request.sl) :
    Done (work (obliging payload info (some pos)) payload).1 ∧
      (work (obliging payload info (some pos)) payload).2 = some pos := by
  unfold nearly at hnear
  simp [work, hrequest, obliging, agentModify, modifyPosition, modifyRead, completionOf, hnear, Done]

lemma done_obliging_of_sent (hrequest : agentRequest payload = some request)
    (hpinned : Pinned payload) (hnear : ¬ nearly info pos request.sl)
    (hrisk : riskier info pos request.sl = false) :
    Done (work (obliging payload info (some pos)) payload).1 ∧
      (work (obliging payload info (some pos)) payload).2
        = some (requested info pos request.sl request.tp) := by
  have hidentity : verifyMutationIdentity (obliging payload info (some pos)).terminal
      request.identity = .ok () := by
    rw [identity_of_agentRequest hrequest]
    obtain ⟨hlogin, hserver⟩ := hpinned
    unfold verifyMutationIdentity
    split_ifs with hrequired
    · simp [applyIdentityPin, hlogin, hserver, obliging, evaluateMutationIdentity]
    · have hblank : strip "" = "" := by decide
      simp [obliging, evaluateMutationIdentity, hblank]
  have hread : modifyRead (obliging payload info (some pos)).terminal request.ticket request.sl
      request.tp request.identity pos
        = sendRequest (obliging payload info (some pos)).terminal pos
            { symbol := pos.symbol, position := request.ticket
              sl := quantizeEven (digitsOf info) request.sl
              tp := quantizeEven (digitsOf info) (request.tp.getD pos.tp)
              magic := pos.magic } (epsOf (digitsOf info)) := by
    unfold modifyRead
    rw [hidentity]
    unfold nearly at hnear
    unfold riskier at hrisk
    simp [obliging, hnear, hrisk, withinStopsLevel]
  have hsent : modifyPosition (obliging payload info (some pos)).terminal request.ticket request.sl
      request.tp request.identity
        = { reply :=
              { ok := true, ticket := some request.ticket, priorSl := some pos.sl
                requestedSl := some (quantizeEven (digitsOf info) request.sl)
                verifiedSl := some (quantizeEven (digitsOf info) request.sl)
                retcode := some retcodeDone, comment := some "" }
            position := some (requested info pos request.sl request.tp) } := by
    simp only [modifyPosition, obliging] at hread ⊢
    simp only [hread]
    simp [sendRequest, Position.apply, requested, epsOf_pos]
  simp only [work, hrequest, agentModify]
  rw [hsent]
  simp [obliging, completionOf, Done]

end

end ModifyPosition
end GuvFX
