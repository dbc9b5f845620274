/-
# The producers of execution jobs

Four producers turn recorded intents into execution jobs: one for openings, one for full closes,
one for changes of the protective levels and one for partial closes.  Each of them admits an intent
twice, once when it scans and once on the locked row, and decides under the lock what it writes.
The last three act on the verified ticket of a follower position and never on a symbol; where they
are not armed they only mark the intent.

The admission of an opening on a live account is that of `LiveExecution`.
-/
import GuvFX.TradeCopier.LiveExecution

namespace GuvFX
namespace ExecutionProducer

open Checks Flags Follower Reconcile
open Decimal (quantize quantizeEven)
open Consumer (JobType JobStatus RequestedOp ReplicationStatus)
open Diff (EventType hasLevel priceEps)
open LiveExecution (CopierFollower CopierLiveAuthorization World MasterPosition ExecutionMode
  producible protectionOk freshOpenSize maxLot freshnessSeconds supersededByClose)

/-! ### Records -/

structure MasterEvent extends LiveExecution.MasterEvent where
  volumeBefore : ℚ
  prevSl : Option ℚ
  newSl : Option ℚ
  deriving DecidableEq, Repr

/-- An intent with the follower position that it was reconciled with. -/
structure CopierReplication extends LiveExecution.CopierReplication where
  followerTicket : Option ℤ
  reconciliationStatus : ReconStatus
  deriving DecidableEq, Repr

structure TicketPayload where
  symbol : String
  ticket : ℤ
  volume : Option ℚ := none
  sl : Option ℚ := none
  tp : Option ℚ := none
  isDemo : Bool
  executionMode : ExecutionMode
  comment : String
  signalSource : String := "copier"
  reason : String
  copierReplicationId : ℕ
  copierOpenReplicationId : Option ℕ := none
  expectedRemaining : Option ℚ := none
  deriving DecidableEq, Repr

inductive JobPayload where
  | order (p : LiveExecution.Payload)
  | ticket (p : TicketPayload)
  deriving DecidableEq, Repr

/-- The key `ticket` of a payload. -/
def JobPayload.ticket? : JobPayload → Option ℤ
  | .order _ => none
  | .ticket p => some p.ticket

/-- The key `copier_replication_id` of a payload. -/
def JobPayload.copierReplicationId : JobPayload → ℕ
  | .order p => p.copierReplicationId
  | .ticket p => p.copierReplicationId

structure ExecutionJob where
  accountId : ℕ
  jobType : JobType
  status : JobStatus := .pending
  terminalNodeId : Option ℕ := none
  payload : JobPayload
  hostedIdempotencyKey : String
  deriving DecidableEq, Repr

/-- The rows that the producers read and write. -/
structure Db where
  events : Table MasterEvent
  followers : Table CopierFollower
  replications : Table CopierReplication
  authorizations : Table CopierLiveAuthorization
  jobs : Table ExecutionJob

/-- What the producers read and never write. -/
structure Env extends LiveExecution.Env where
  world : World
  positions : ℕ → MasterReadResult

def ExecutionJob.order (job : ExecutionJob) : Option LiveExecution.ExecutionJob :=
  match job.payload with
  | .order payload => some
    { accountId := job.accountId, jobType := job.jobType, terminalNodeId := job.terminalNodeId
      payload, hostedIdempotencyKey := job.hostedIdempotencyKey }
  | .ticket _ => none

def Db.live (db : Db) : LiveExecution.Db where
  events := db.events.filterMap fun event => some event.toMasterEvent
  followers := db.followers
  replications := db.replications.filterMap fun rep => some rep.toCopierReplication
  authorizations := db.authorizations
  jobs := db.jobs.filterMap (·.order)

/-! ### The admission of an opening -/

def demoOpenChecks (env : Env) (db : Db) (rep : CopierReplication) (follower : CopierFollower)
    (event : MasterEvent) : List (Bool × String) :=
  let macct := env.world.accounts follower.masterAccountId
  let acct := env.world.accounts follower.followerAccountId
  let instrument := env.instruments follower.followerAccountId rep.followerSymbol
  let sym := resolveFollowerSymbol env.world.symbolMaps macct event.symbol acct
  let gates : List (Bool × String) := [(acct.isActive, "account_inactive")]
  let intent : List (Bool × String) :=
    [(rep.sltpTranslationOk, "sltp_incomplete"),
     (rep.targetVolume.isSome, "no_target_volume"),
     (!supersededByClose db.live event.toMasterEvent, "open_superseded_by_close"),
     (env.now - freshnessSeconds ≤ event.observedAt, "stale_open_outside_window")]
  let symbols : List (Bool × String) :=
    [((brokerConstraints instrument).authoritative, "constraints_not_authoritative"),
     (instrument.any (·.enabled), "instrument_not_ready"),
     (sym.ok ∧ sym.followerSymbol = rep.followerSymbol, "symbol_map_changed")]
  gates ++ validateFollowerBinding follower.masterAccountId follower.followerAccountId macct acct
  ++ intent ++ protectionOk (env.world.masterPosition rep.masterEventId) ++ symbols

/-- The admission of an opening: on a live account the authorization that it found, and nothing on
a demo account. -/
def admitOpen (env : Env) (db : Db) (rep : CopierReplication) (follower : CopierFollower)
    (event : MasterEvent) : Except String (Option ℕ) :=
  match firstRefusal (producible rep.toCopierReplication follower) with
  | some reason => .error reason
  | none =>
    if isDemoEnvironment (env.world.accounts follower.followerAccountId) then
      match firstRefusal (demoOpenChecks env db rep follower event) with
      | some reason => .error reason
      | none => .ok none
    else
      let authz := LiveExecution.activeAuthorizationFor db.live follower.masterAccountId
        follower.followerAccountId
      (LiveExecution.admitOpenLive env.world env.toEnv db.live authz rep.toCopierReplication
        rep.followerId follower event.toMasterEvent).map some

/-! ### The admission of an action on a follower ticket -/

/-- What the three ticket producers ask of an intent for the operation `op`. -/
def ticketChecks (env : Env) (op : RequestedOp) (notOp : String) (rep : CopierReplication)
    (follower : CopierFollower) : List (Bool × String) :=
  let acct := env.world.accounts follower.followerAccountId
  let gates : List (Bool × String) :=
    [(rep.executionJobId = none, "already_produced"),
     (rep.status = .shadowRecorded, "not_shadow_intent"),
     (rep.requestedOp = op, notOp),
     (follower.enabled, "follower_disabled"),
     (isDemoEnvironment acct, "follower_not_demo"),
     (acct.isActive, "account_inactive")]
  gates ++ validateFollowerBinding follower.masterAccountId follower.followerAccountId
    (env.world.accounts follower.masterAccountId) acct

/-- The reconciled opening of the position that an intent is about, found by the position of the
master and never by the symbol. -/
def matchedOpenForClose (db : Db) (rep : CopierReplication) (event : MasterEvent) :
    Option (ℕ × CopierReplication) :=
  Latest.latest Prod.fst none (db.replications.filter fun _ other =>
    other.followerId = rep.followerId ∧ other.requestedOp = .open_ ∧
      other.reconciliationStatus = .matched ∧ other.followerTicket.isSome ∧
      (db.events.get other.masterEventId).any fun ev =>
        ev.masterAccountId = event.masterAccountId ∧ ev.positionTicket = event.positionTicket)

def alreadyTargets (db : Db) (jobType : JobType) (accountId : ℕ) (ticket : ℤ) : Bool :=
  (db.jobs.first fun _ job =>
    job.jobType = jobType ∧ (job.status = .pending ∨ job.status = .running) ∧
      job.accountId = accountId ∧ job.payload.ticket? = some ticket).isSome

/-- The admission of a full close: the verified ticket and the opening that it belongs to. -/
def admitClose (env : Env) (db : Db) (rep : CopierReplication) (follower : CopierFollower)
    (event : MasterEvent) : Except String (ℤ × ℕ × CopierReplication) :=
  match firstRefusal (ticketChecks env .close "op_not_close" rep follower) with
  | some reason => .error reason
  | none =>
    match matchedOpenForClose db rep event with
    | none => .error "no_verified_follower_ticket"
    | some (o, openRepl) =>
      let ticket := openRepl.followerTicket.getD 0
      if alreadyTargets db .closeTrade follower.followerAccountId ticket then
        .error "close_already_in_flight"
      else .ok (ticket, o, openRepl)

/-- The reason why a change of the stop-loss would weaken the protection, if it would. -/
def slWeakeningReason (event : MasterEvent) (snap : Option MasterPosition) : Option String :=
  match event.eventType with
  | .slRemove => some "sl_removal_not_auto_replicated"
  | .slChange =>
    if !hasLevel event.newSl then some "sl_removal_not_auto_replicated"
    else
      match snap.bind (·.priceOpen), event.prevSl, event.newSl with
      | some entry, some prevSl, some newSl =>
        if !hasLevel (some entry) ∨ !hasLevel (some prevSl) then some "sl_change_unverifiable"
        else if |entry - prevSl| + priceEps < |entry - newSl| then
          some "sl_widening_not_auto_replicated"
        else none
      | _, _, _ => some "sl_change_unverifiable"
  | _ => none

/-- The admission of a change of the protective levels. -/
def admitModify (env : Env) (db : Db) (rep : CopierReplication) (follower : CopierFollower)
    (event : MasterEvent) : Except String ℤ :=
  match firstRefusal (ticketChecks env .modifySltp "op_not_modify" rep follower
      ++ [(rep.sltpTranslationOk, "sltp_incomplete")]) with
  | some reason => .error reason
  | none =>
    match slWeakeningReason event (env.world.masterPosition rep.masterEventId) with
    | some reason => .error reason
    | none =>
      match matchedOpenForClose db rep event with
      | none => .error "no_verified_follower_ticket"
      | some (_, openRepl) =>
        let ticket := openRepl.followerTicket.getD 0
        if alreadyTargets db .modifyPosition follower.followerAccountId ticket then
          .error "modify_already_in_flight"
        else .ok ticket

/-- The proportional reduction of a follower volume, rounded down to the lot step, and what remains
after it. -/
def partialReduction (masterBefore masterAfter current : ℚ) (constraints : BrokerConstraints) :
    Except String (ℚ × ℚ) :=
  let ratio := (masterBefore - masterAfter) / masterBefore
  let step := constraints.lotStep
  let vmin := constraints.minVolume
  let raw := ratio * current
  let reduction := quantizeEven 8 (⌊raw / step + 1 / 1000000000⌋ * step)
  let remaining := quantizeEven 8 (current - reduction)
  let checks : List (Bool × String) :=
    [(0 < masterBefore ∧ 0 ≤ masterAfter ∧ masterAfter < masterBefore, "master_ratio_invalid"),
     (0 < ratio ∧ ratio < 1, "master_ratio_invalid"),
     (0 < current, "follower_volume_invalid"),
     (0 < step ∧ 0 < vmin, "constraints_unavailable"),
     (0 < raw, "zero_requested"),
     (0 < reduction, "rounds_to_zero"),
     (vmin ≤ reduction, "below_min_reduction"),
     (reduction < current, "would_be_full_close"),
     (vmin ≤ remaining, "remainder_below_min")]
  match firstRefusal checks with
  | some reason => .error reason
  | none => .ok (reduction, remaining)

/-- The admission of a partial close: the verified ticket, the reduction and what remains. -/
def admitPartialClose (env : Env) (db : Db) (rep : CopierReplication) (follower : CopierFollower)
    (event : MasterEvent) : Except String (ℤ × ℚ × ℚ) :=
  match firstRefusal (ticketChecks env .partialClose "op_not_partial_close" rep follower) with
  | some reason => .error reason
  | none =>
    match matchedOpenForClose db rep event with
    | none => .error "no_verified_follower_ticket"
    | some (_, openRepl) =>
      let ticket := openRepl.followerTicket.getD 0
      match readFollowerPosition ticket (env.positions follower.followerAccountId) with
      | .error reason => .error ("follower_read:" ++ reason)
      | .ok none => .error "follower_ticket_not_open"
      | .ok (some pos) =>
        let symbol := if rep.followerSymbol = "" then pos.symbol else rep.followerSymbol
        let constraints := brokerConstraints (env.instruments follower.followerAccountId symbol)
        if pos.symbol ≠ symbol then .error "symbol_changed"
        else if !constraints.authoritative then .error "constraints_not_authoritative"
        else
          match partialReduction event.volumeBefore event.volumeAfter pos.volume constraints with
          | .error reason => .error reason
          | .ok (reduction, remaining) =>
            if alreadyTargets db .partialCloseTrade follower.followerAccountId ticket then
              .error "partial_close_already_in_flight"
            else .ok (ticket, reduction, remaining)

/-! ### What the locked section writes -/

/-- The columns of the intent that are written, and the job that goes with them, if there is one. -/
structure Decision where
  row : CopierReplication
  job : Option ExecutionJob
  charge : Option (ℕ × CopierLiveAuthorization) := none
  deriving DecidableEq, Repr

def orderPayload (r : ℕ) (rep : CopierReplication) (event : MasterEvent) (volume : ℚ)
    (maxLot : Option ℚ) (executionMode : ExecutionMode) : LiveExecution.Payload where
  symbol := rep.followerSymbol
  providerSymbol := event.symbol
  side := event.side
  lots := volume
  slPrice := rep.translatedSl
  tpPrice := rep.translatedTp
  isDemo := true
  executionMode := executionMode
  comment := "CPY" ++ toString r
  maxLot := maxLot
  copierReplicationId := r

/-- The decision on an opening of a demo follower: a real order where the producer is armed, and a
suppressed one where it is not. -/
def decideOpen (env : Env) (armed : Bool) (r : ℕ) (rep : CopierReplication)
    (follower : CopierFollower) (event : MasterEvent) : Except String Decision :=
  let constraints :=
    brokerConstraints (env.instruments follower.followerAccountId rep.followerSymbol)
  let sr := freshOpenSize event.toMasterEvent follower constraints
  match firstRefusal
      [(sr.ok, "fresh_size:" ++ sr.detail),
       (decide (sr.detail ≠ "clamped_to_max"), "volume_would_be_clamped"),
       (sr.volume.any fun v => 0 < v, "non_positive_volume")] with
  | some reason => .error reason
  | none =>
    .ok
      { row := { rep with
          status := if armed then .executionRequested else .shadowJobRecorded
          targetVolume := sr.volume.map (quantize 3) }
        job := some
          { accountId := follower.followerAccountId
            jobType := if armed then .placeOrder else .placeOrderShadow
            payload := .order (orderPayload r rep event (sr.volume.getD 0)
              (maxLot constraints follower) (if armed then .demo else .shadow))
            hostedIdempotencyKey := "copier:" ++ toString r } }

/-- The decision on an opening of a live follower, under the lock of the authorization. -/
def decideOpenLive (env : Env) (db : Db) (r : ℕ) (rep : CopierReplication)
    (follower : CopierFollower) (event : MasterEvent) (admittedId authorizationId : ℕ)
    (authz : CopierLiveAuthorization) : Except String Decision :=
  match LiveExecution.createLiveOpenJob env.world env.toEnv db.live r rep.toCopierReplication
      rep.followerId follower event.toMasterEvent admittedId authorizationId authz with
  | .error reason => .error reason
  | .ok t =>
    .ok
      { row := { rep with status := .executionRequested, targetVolume := some (quantize 3 t.volume) }
        job := some
          { accountId := t.job.accountId, jobType := t.job.jobType
            terminalNodeId := t.job.terminalNodeId, payload := .order t.job.payload
            hostedIdempotencyKey := t.job.hostedIdempotencyKey }
        charge := some (authorizationId, authz) }

def ticketSymbol (rep : CopierReplication) (event : MasterEvent) : String :=
  if rep.followerSymbol = "" then event.symbol else rep.followerSymbol

def closePayload (r : ℕ) (rep : CopierReplication) (event : MasterEvent) (ticket : ℤ)
    (openReplicationId : ℕ) : TicketPayload where
  symbol := ticketSymbol rep event
  ticket := ticket
  isDemo := true
  executionMode := .demo
  comment := "CPYC" ++ toString r
  reason := "copier_master_full_close"
  copierReplicationId := r
  copierOpenReplicationId := some openReplicationId

def decideClose (armed : Bool) (r : ℕ) (rep : CopierReplication) (follower : CopierFollower)
    (event : MasterEvent) (ticket : ℤ) (o : ℕ) (openRepl : CopierReplication) : Decision :=
  if armed then
    { row := { rep with followerTicket := some ticket, status := .executionRequested }
      job := some
        { accountId := follower.followerAccountId, jobType := .closeTrade
          payload := .ticket (closePayload r rep event ticket o)
          hostedIdempotencyKey := "copier-close:" ++ toString r } }
  else
    { row := { rep with
        followerTicket := some ticket, status := .shadowJobRecorded
        reconciliationStatus := openRepl.reconciliationStatus }
      job := none }

def modifyPayload (r : ℕ) (rep : CopierReplication) (event : MasterEvent) (ticket : ℤ) :
    TicketPayload where
  symbol := ticketSymbol rep event
  ticket := ticket
  sl := rep.translatedSl
  tp := rep.translatedTp
  isDemo := true
  executionMode := .demo
  comment := "CPYM" ++ toString r
  reason := "copier_master_sltp_modify"
  copierReplicationId := r

/-- The decision on a change of the protective levels. -/
def decideModify (armed : Bool) (r : ℕ) (rep : CopierReplication) (follower : CopierFollower)
    (event : MasterEvent) (ticket : ℤ) : Decision :=
  if armed then
    { row := { rep with followerTicket := some ticket, status := .executionRequested }
      job := some
        { accountId := follower.followerAccountId, jobType := .modifyPosition
          payload := .ticket (modifyPayload r rep event ticket)
          hostedIdempotencyKey := "copier-modify:" ++ toString r } }
  else
    { row := { rep with followerTicket := some ticket, status := .shadowJobRecorded }
      job := none }

def partialClosePayload (r : ℕ) (rep : CopierReplication) (event : MasterEvent) (ticket : ℤ)
    (reduction remaining : ℚ) : TicketPayload where
  symbol := ticketSymbol rep event
  ticket := ticket
  volume := some reduction
  isDemo := true
  executionMode := .demo
  comment := "CPYP" ++ toString r
  reason := "copier_master_partial_close"
  copierReplicationId := r
  expectedRemaining := some remaining

def decidePartialClose (env : Env) (armed : Bool) (r : ℕ) (rep : CopierReplication)
    (follower : CopierFollower) (event : MasterEvent) (ticket : ℤ) (reduction remaining : ℚ) :
    Decision :=
  if armed then
    { row := { rep with
        followerTicket := some ticket, targetVolume := some (quantize 3 reduction)
        status := .executionRequested }
      job := some
        { accountId := follower.followerAccountId, jobType := .partialCloseTrade
          terminalNodeId := (env.world.accounts follower.followerAccountId).terminalNodeId
          payload := .ticket (partialClosePayload r rep event ticket reduction remaining)
          hostedIdempotencyKey := "copier-pclose:" ++ toString r } }
  else
    { row := { rep with
        followerTicket := some ticket, targetVolume := some (quantize 3 reduction)
        status := .shadowJobRecorded }
      job := none }

/-! ### The four producers -/

inductive Producer where
  | open_
  | close
  | modify
  | partialClose
  deriving DecidableEq, Repr

def Producer.requestedOp : Producer → RequestedOp
  | .open_ => .open_
  | .close => .close
  | .modify => .modifySltp
  | .partialClose => .partialClose

inductive DemoAdmission where
  | open_
  | close (ticket : ℤ) (openId : ℕ) (openRepl : CopierReplication)
  | modify (ticket : ℤ)
  | partialClose (ticket : ℤ) (reduction remaining : ℚ)
  deriving DecidableEq, Repr

inductive Admission where
  | demo (found : DemoAdmission)
  | live (authorizationId : ℕ)
  deriving DecidableEq, Repr

def DemoAdmission.producer : DemoAdmission → Producer
  | .open_ => .open_
  | .close .. => .close
  | .modify _ => .modify
  | .partialClose .. => .partialClose

def Admission.producer : Admission → Producer
  | .demo found => found.producer
  | .live _ => .open_

def admitReplication (env : Env) (db : Db) (producer : Producer) (rep : CopierReplication) :
    Except String Admission :=
  match db.followers.get rep.followerId, db.events.get rep.masterEventId with
  | some follower, some event =>
    match producer with
    | .open_ => (admitOpen env db rep follower event).map fun authorizationId =>
        authorizationId.elim (.demo .open_) .live
    | .close => (admitClose env db rep follower event).map fun found =>
        .demo (.close found.1 found.2.1 found.2.2)
    | .modify => (admitModify env db rep follower event).map fun ticket => .demo (.modify ticket)
    | .partialClose => (admitPartialClose env db rep follower event).map fun found =>
        .demo (.partialClose found.1 found.2.1 found.2.2)
  | _, _ => .error "gate:DoesNotExist"

/-- The decision on an admitted intent of a demo follower. -/
def decision (env : Env) (armed : Bool) (r : ℕ) (rep : CopierReplication)
    (follower : CopierFollower) (event : MasterEvent) : DemoAdmission → Except String Decision
  | .open_ => decideOpen env armed r rep follower event
  | .close ticket o openRepl => .ok (decideClose armed r rep follower event ticket o openRepl)
  | .modify ticket => .ok (decideModify armed r rep follower event ticket)
  | .partialClose ticket reduction remaining =>
    .ok (decidePartialClose env armed r rep follower event ticket reduction remaining)

/-! ### What admissions and decisions say -/

section

variable {env : Env} {db : Db} {producer : Producer} {rep : CopierReplication} {r : ℕ}
  {follower : CopierFollower} {event : MasterEvent} {armed : Bool} {d : Decision}

def jobTypeFor : Producer → Bool → Option JobType
  | .open_, true => some .placeOrder
  | .open_, false => some .placeOrderShadow
  | .close, true => some .closeTrade
  | .modify, true => some .modifyPosition
  | .partialClose, true => some .partialCloseTrade
  | _, false => none

/-- What every admission has checked of the intent. -/
structure Admissible (producer : Producer) (rep : CopierReplication) : Prop where
  noJob : rep.executionJobId = none
  status : rep.status = .shadowRecorded
  op : rep.requestedOp = producer.requestedOp

lemma of_admitOpen {found : Option ℕ} (h : admitOpen env db rep follower event = .ok found) :
    Admissible .open_ rep ∧
      (found ≠ none → copierLiveExecuteEnabled env.flags = true) := by
  unfold admitOpen at h
  dsimp only at h
  split at h
  · cases h
  · rename_i hproducible
    have hall := firstRefusal_eq_none_iff.mp hproducible
    simp only [producible, List.forall_mem_cons, decide_eq_true_eq] at hall
    refine ⟨⟨hall.1, hall.2.1, hall.2.2.1⟩, ?_⟩
    split_ifs at h with hdemo
    · split at h
      · cases h
      · obtain rfl := Except.ok.inj h
        exact fun hne => absurd rfl hne
    · intro _
      -- the arm of live orders is the first gate of their admission
      unfold LiveExecution.admitOpenLive at h
      dsimp only at h
      split at h
      · cases h
      · rename_i hgates
        exact firstRefusal_eq_none_iff.mp hgates
          (copierLiveExecuteEnabled env.flags, "live_copier_arm_disabled") List.mem_cons_self

lemma admissible_of_ticketChecks {op : RequestedOp} {notOp : String}
    {more : List (Bool × String)} (hop : op = producer.requestedOp)
    (h : firstRefusal (ticketChecks env op notOp rep follower ++ more) = none) :
    Admissible producer rep := by
  have hall := firstRefusal_eq_none_iff.mp h
  simp only [ticketChecks, List.forall_mem_append, List.forall_mem_cons,
    decide_eq_true_eq] at hall
  obtain ⟨⟨⟨hnone, hstatus, hrequested, -⟩, -⟩, -⟩ := hall
  exact ⟨hnone, hstatus, hrequested.trans hop⟩

lemma of_admitClose {found : ℤ × ℕ × CopierReplication}
    (h : admitClose env db rep follower event = .ok found) : Admissible .close rep := by
  unfold admitClose at h
  split at h
  · cases h
  · rename_i hchecks
    rw [← List.append_nil (ticketChecks _ _ _ _ _)] at hchecks
    exact admissible_of_ticketChecks rfl hchecks

lemma of_admitModify {found : ℤ} (h : admitModify env db rep follower event = .ok found) :
    Admissible .modify rep := by
  unfold admitModify at h
  split at h
  · cases h
  · rename_i hchecks
    exact admissible_of_ticketChecks rfl hchecks

lemma of_admitPartialClose {found : ℤ × ℚ × ℚ}
    (h : admitPartialClose env db rep follower event = .ok found) :
    Admissible .partialClose rep := by
  unfold admitPartialClose at h
  split at h
  · cases h
  · rename_i hchecks
    rw [← List.append_nil (ticketChecks _ _ _ _ _)] at hchecks
    exact admissible_of_ticketChecks rfl hchecks

/-- **What an admission has checked.**  The intent has no job, it waits for one, and its operation
is that of the producer; a live opening has found the arm of live orders on. -/
theorem of_admitReplication {admission : Admission}
    (h : admitReplication env db producer rep = .ok admission) :
    Admissible producer rep ∧ admission.producer = producer ∧
      ∀ a, admission = .live a → copierLiveExecuteEnabled env.flags = true := by
  unfold admitReplication at h
  split at h
  · rename_i follower event _ _
    cases producer with
    | open_ =>
      cases hadm : admitOpen env db rep follower event with
      | error reason => simp [hadm, Except.map] at h
      | ok found =>
        obtain ⟨hadmissible, hlive⟩ := of_admitOpen hadm
        rw [hadm] at h
        obtain rfl := Except.ok.inj h
        refine ⟨hadmissible, ?_, ?_⟩
        · cases found <;> rfl
        · intro a ha
          refine hlive ?_
          rintro rfl
          cases ha
    | close =>
      cases hadm : admitClose env db rep follower event with
      | error reason => simp [hadm, Except.map] at h
      | ok found =>
        rw [hadm] at h
        obtain rfl := Except.ok.inj h
        exact ⟨of_admitClose hadm, rfl, fun _ ha => nomatch ha⟩
    | modify =>
      cases hadm : admitModify env db rep follower event with
      | error reason => simp [hadm, Except.map] at h
      | ok found =>
        rw [hadm] at h
        obtain rfl := Except.ok.inj h
        exact ⟨of_admitModify hadm, rfl, fun _ ha => nomatch ha⟩
    | partialClose =>
      cases hadm : admitPartialClose env db rep follower event with
      | error reason => simp [hadm, Except.map] at h
      | ok found =>
        rw [hadm] at h
        obtain rfl := Except.ok.inj h
        exact ⟨of_admitPartialClose hadm, rfl, fun _ ha => nomatch ha⟩
  · cases h

/-- What a decision on the intent `r` writes. -/
structure Decision.Fits (d : Decision) (r : ℕ) (rep : CopierReplication) (type : Option JobType) :
    Prop where
  jobType : d.job.map (·.jobType) = type
  replication : ∀ job, d.job = some job → job.payload.copierReplicationId = r
  pending : ∀ job, d.job = some job → job.status = .pending
  row : d.row.executionJobId = rep.executionJobId
  op : d.row.requestedOp = rep.requestedOp

lemma fits_of_job {row : CopierReplication} {job : ExecutionJob}
    {charge : Option (ℕ × CopierLiveAuthorization)}
    (hr : job.payload.copierReplicationId = r) (hpending : job.status = .pending)
    (hrow : row.executionJobId = rep.executionJobId) (hop : row.requestedOp = rep.requestedOp) :
    Decision.Fits { row, job := some job, charge } r rep (some job.jobType) where
  jobType := rfl
  replication := by
    rintro _ ⟨⟩
    exact hr
  pending := by
    rintro _ ⟨⟩
    exact hpending
  row := hrow
  op := hop

lemma fits_of_mark {row : CopierReplication} (hrow : row.executionJobId = rep.executionJobId)
    (hop : row.requestedOp = rep.requestedOp) :
    Decision.Fits { row, job := none } r rep none where
  jobType := rfl
  replication := by
    rintro _ ⟨⟩
  pending := by
    rintro _ ⟨⟩
  row := hrow
  op := hop

/-- **What a decision writes for a demo follower**: the job that the producer makes under the
arming flag, for its intent. -/
theorem of_decision {found : DemoAdmission}
    (h : decision env armed r rep follower event found = .ok d) :
    d.Fits r rep (jobTypeFor found.producer armed) := by
  cases found with
  | open_ =>
    simp only [decision, decideOpen] at h
    split at h
    · cases h
    · obtain rfl := Except.ok.inj h
      cases armed with
      | true => exact fits_of_job rfl rfl rfl rfl
      | false => exact fits_of_job rfl rfl rfl rfl
  | close ticket o openRepl =>
    obtain rfl := Except.ok.inj h
    cases armed with
    | true => exact fits_of_job rfl rfl rfl rfl
    | false => exact fits_of_mark rfl rfl
  | modify ticket =>
    obtain rfl := Except.ok.inj h
    cases armed with
    | true => exact fits_of_job rfl rfl rfl rfl
    | false => exact fits_of_mark rfl rfl
  | partialClose ticket reduction remaining =>
    obtain rfl := Except.ok.inj h
    cases armed with
    | true => exact fits_of_job rfl rfl rfl rfl
    | false => exact fits_of_mark rfl rfl

/-- Only a live opening charges an authorization. -/
lemma charge_of_decision {found : DemoAdmission}
    (h : decision env armed r rep follower event found = .ok d) : d.charge = none := by
  cases found with
  | open_ =>
    simp only [decision, decideOpen] at h
    split at h
    · cases h
    · obtain rfl := Except.ok.inj h
      rfl
  | close ticket o openRepl =>
    obtain rfl := Except.ok.inj h
    cases armed <;> rfl
  | modify ticket =>
    obtain rfl := Except.ok.inj h
    cases armed <;> rfl
  | partialClose ticket reduction remaining =>
    obtain rfl := Except.ok.inj h
    cases armed <;> rfl

/-- What a decision writes for a live follower. -/
theorem of_decideOpenLive {a id : ℕ} {authz : CopierLiveAuthorization}
    (h : decideOpenLive env db r rep follower event a id authz = .ok d) :
    d.Fits r rep (some .placeOrder) ∧ d.charge = some (id, authz) := by
  unfold decideOpenLive at h
  split at h
  · cases h
  · rename_i t hcreate
    unfold LiveExecution.createLiveOpenJob at hcreate
    dsimp only at hcreate
    split at hcreate
    · cases hcreate
    · obtain rfl := Except.ok.inj hcreate
      obtain rfl := Except.ok.inj h
      exact ⟨fits_of_job rfl rfl rfl rfl, rfl⟩

end

end ExecutionProducer
end GuvFX
