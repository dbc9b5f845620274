/-
# Copied changes of the protective levels

A change of the levels of a master position reaches a follower over four layers: the translation
into the intent, the payload of the job, the body that the worker sends, and the request of the
bridge.  A level that the master does not have is an absent value in the first two, is required or
left out in the third, and stands for the level that is there already in the last.

The file follows an intent over all of them.  A job that is done has brought the levels of the
master to the follower, in every world that it can meet, exactly under a condition on the intent and
on the position before it.
-/
import GuvFX.Execution.ModifyPosition
import GuvFX.TradeCopier.ExecutionProducer

namespace GuvFX
namespace CopiedModify

open Decimal (quantizeEven)
open ExecutionProducer
open ModifyPosition (PinRecords Payload World SymbolInfo Position Done missingFields work agentRequest
  nearly riskier requested digitsOf obliging Pinned hostedWindowsUsernameFor)

/-! ### The job of an intent -/

/-- The producer of level changes, armed, turns the intent `r` into the job. -/
def Produces (env : Env) (db : Db) (r : ℕ) (rep : CopierReplication) (job : ExecutionJob) : Prop :=
  ∃ follower event found d, db.followers.get rep.followerId = some follower ∧
    db.events.get rep.masterEventId = some event ∧
    admitReplication env db .modify rep = .ok (.demo found) ∧
    decision env true r rep follower event found = .ok d ∧ d.job = some job

def saved (rec : PinRecords) (env : Env) (job : ExecutionJob) : Payload :=
  let payload : Payload :=
    match job.payload with
    | .ticket p => { ticket := some p.ticket, sl := p.sl, tp := p.tp, isDemo := some p.isDemo }
    | .order _ => { ticket := none, sl := none }
  ModifyPosition.injectIdentityPin rec job.accountId (env.world.accounts job.accountId) payload

/-! ### What the follower should have -/

/-- The level that a translated level stands for at the broker. -/
def levelAt (info : Option SymbolInfo) (level : Option ℚ) : ℚ :=
  level.elim 0 (quantizeEven (digitsOf info))

/-- The position has the translated levels of the intent. -/
structure Mirrors (rep : CopierReplication) (info : Option SymbolInfo) (pos : Position) : Prop where
  sl : pos.sl = levelAt info rep.translatedSl
  tp : pos.tp = levelAt info rep.translatedTp

/-- A job that is done leaves the follower with the levels of the master, and it is not refused for
a missing field. -/
structure Delivers (rep : CopierReplication) (payload : Payload) (w : World) : Prop where
  mirrors : Done (work w payload).1 →
    ∃ pos, (work w payload).2 = some pos ∧ Mirrors rep w.terminal.info pos
  taken : (work w payload).1 ≠ missingFields

/-- The condition on the intent, its account and the position of the follower. -/
structure CanDeliver (rep : CopierReplication) (username : String) (ticket : ℤ) (payload : Payload)
    (info : Option SymbolInfo) (position : Option Position) : Prop where
  username : username ≠ ""
  ticket : ticket ≠ 0
  sl : rep.translatedSl.isSome
  /-- A stop-loss that is nearly there is there, and so is the take-profit. -/
  unchanged : ∀ pos, position = some pos → ∀ sl, rep.translatedSl = some sl →
    nearly info pos sl → Mirrors rep info pos
  /-- Where the broker is asked, an absent take-profit is absent at the follower. -/
  asked : ∀ pos, position = some pos → ∀ sl, rep.translatedSl = some sl →
    ¬ nearly info pos sl → riskier info pos sl = false → Pinned payload →
    rep.translatedTp = none → quantizeEven (digitsOf info) pos.tp = 0

/-! ### From the intent to the body -/

section

variable {env : Env} {db : Db} {r : ℕ} {rep : CopierReplication} {job : ExecutionJob}
  {rec : PinRecords} {w : World} {info : Option SymbolInfo} {position : Option Position}

lemma payload_of_produces (h : Produces env db r rep job) :
    ∃ p, job.payload = .ticket p ∧ p.sl = rep.translatedSl ∧ p.tp = rep.translatedTp := by
  obtain ⟨follower, event, found, d, -, -, hadmit, hdecision, hjob⟩ := h
  have hproducer := (of_admitReplication hadmit).2.1
  cases found with
  | modify ticket =>
    obtain rfl := Except.ok.inj hdecision
    obtain rfl := Option.some.inj hjob
    exact ⟨_, rfl, rfl, rfl⟩
  | open_ => cases hproducer
  | close ticket o openRepl => cases hproducer
  | partialClose ticket reduction remaining => cases hproducer

lemma agentRequest_saved (h : Produces env db r rep job) :
    (agentRequest (saved rec env job)).isSome ↔
      hostedWindowsUsernameFor rec job.accountId ≠ "" ∧ job.payload.ticket?.getD 0 ≠ 0 ∧
        rep.translatedSl.isSome := by
  obtain ⟨p, hpayload, hsl, -⟩ := payload_of_produces h
  rw [← hsl]
  by_cases hhosted : ModifyPosition.isHostedWorkspaceAccount rec job.accountId = true
  · cases hlevel : p.sl with
    | none =>
      simp [saved, hpayload, ModifyPosition.injectIdentityPin, hhosted, agentRequest, hlevel]
    | some sl =>
      simp only [saved, hpayload, ModifyPosition.injectIdentityPin, hhosted, if_true, agentRequest,
        hlevel, JobPayload.ticket?, Option.getD_some, Option.isSome_some, and_true]
      split_ifs with hfields
      · simp [hfields]
      · simp [hfields]
  · simp [saved, hpayload, ModifyPosition.injectIdentityPin, hhosted, agentRequest,
      hostedWindowsUsernameFor]

lemma levels_of_agentRequest {request : ModifyPosition.AgentRequest} (h : Produces env db r rep job)
    (hrequest : agentRequest (saved rec env job) = some request) :
    rep.translatedSl = some request.sl ∧ rep.translatedTp = request.tp := by
  obtain ⟨p, hpayload, hsl, htp⟩ := payload_of_produces h
  rw [← hsl, ← htp]
  have hlevels : (saved rec env job).sl = p.sl ∧ (saved rec env job).tp = p.tp := by
    simp only [saved, hpayload, ModifyPosition.injectIdentityPin]
    split_ifs <;> exact ⟨rfl, rfl⟩
  rw [← hlevels.1, ← hlevels.2]
  unfold agentRequest at hrequest
  split at hrequest
  · split_ifs at hrequest
    obtain rfl := Option.some.inj hrequest
    exact ⟨by assumption, rfl⟩
  · cases hrequest

lemma requireIdentityPin_saved (h : hostedWindowsUsernameFor rec job.accountId ≠ "") :
    (saved rec env job).requireIdentityPin = some true := by
  unfold hostedWindowsUsernameFor at h
  split_ifs at h with hhosted
  · simp only [saved, ModifyPosition.injectIdentityPin, if_pos hhosted]
  · exact absurd rfl h

/-- The levels that the bridge asks for are those of the intent, unless it keeps a take-profit that
the master does not have. -/
lemma mirrors_requested_iff {sl : ℚ} {pos : Position} (hsl : rep.translatedSl = some sl) :
    Mirrors rep info (requested info pos sl rep.translatedTp) ↔
      (rep.translatedTp = none → quantizeEven (digitsOf info) pos.tp = 0) := by
  constructor
  · intro h hnone
    have htp := h.tp
    simpa [requested, levelAt, hnone] using htp
  · intro h
    refine ⟨by simp [requested, levelAt, hsl], ?_⟩
    cases htp : rep.translatedTp with
    | none => simpa [requested, levelAt] using h htp
    | some tp => rfl

end

/-! ### End to end -/

section

variable {env : Env} {db : Db} {r : ℕ} {rep : CopierReplication} {job : ExecutionJob}

/-- **When a copied change of levels does what it says.**  In every world that the job can meet, a
job that is done has left the follower with the levels of the master and no field was missing:
exactly when the account has its Windows user, the ticket and the stop-loss are there, a stop-loss
that is nearly there is there together with the take-profit, and a take-profit that the master does
not have is not there where the broker is asked. -/
theorem copiedModify (rec : PinRecords) (info : Option SymbolInfo) (position : Option Position)
    (h : Produces env db r rep job) :
    (∀ w : World, w.terminal.info = info → w.terminal.position = position →
        Delivers rep (saved rec env job) w) ↔
      CanDeliver rep (hostedWindowsUsernameFor rec job.accountId) (job.payload.ticket?.getD 0)
        (saved rec env job) info position := by
  constructor
  · intro hall
    have htaken := (hall (obliging (saved rec env job) info position) rfl rfl).taken
    rw [Ne, ModifyPosition.work_eq_missingFields_iff] at htaken
    obtain ⟨request, hrequest⟩ := Option.ne_none_iff_exists'.mp htaken
    obtain ⟨hsl, htp⟩ := levels_of_agentRequest h hrequest
    obtain ⟨husername, hticket, hlevel⟩ :=
      (agentRequest_saved h).mp (Option.isSome_iff_exists.mpr ⟨request, hrequest⟩)
    refine ⟨husername, hticket, hlevel, ?_, ?_⟩
    · rintro pos rfl sl hsl' hnear
      obtain rfl : request.sl = sl := Option.some.inj (hsl.symm.trans hsl')
      obtain ⟨hdone, hpos⟩ := ModifyPosition.done_obliging_of_nearly hrequest hnear
      obtain ⟨pos', hpos', hmirrors⟩ :=
        (hall (obliging (saved rec env job) info (some pos)) rfl rfl).mirrors hdone
      obtain rfl : pos = pos' := Option.some.inj (hpos.symm.trans hpos')
      exact hmirrors
    · rintro pos rfl sl hsl' hnear hrisk hpinned
      obtain rfl : request.sl = sl := Option.some.inj (hsl.symm.trans hsl')
      obtain ⟨hdone, hpos⟩ := ModifyPosition.done_obliging_of_sent hrequest hpinned hnear hrisk
      obtain ⟨pos', hpos', hmirrors⟩ :=
        (hall (obliging (saved rec env job) info (some pos)) rfl rfl).mirrors hdone
      obtain rfl := Option.some.inj (hpos.symm.trans hpos')
      rw [← htp] at hmirrors
      exact (mirrors_requested_iff hsl').mp hmirrors
  · rintro hcan w rfl rfl
    have hsome : (agentRequest (saved rec env job)).isSome :=
      (agentRequest_saved h).mpr ⟨hcan.username, hcan.ticket, hcan.sl⟩
    obtain ⟨request, hrequest⟩ := Option.isSome_iff_exists.mp hsome
    obtain ⟨hsl, htp⟩ := levels_of_agentRequest h hrequest
    constructor
    · intro hdone
      obtain ⟨hok, hafter⟩ := ModifyPosition.of_done hrequest hdone
      obtain ⟨pos, hpos, ⟨hnear, hleft⟩ | ⟨hnear, hrisk, hidentity, hsent⟩⟩ :=
        ModifyPosition.of_modifyPosition_ok hok
      · exact ⟨pos, hafter.trans hleft, hcan.unchanged pos hpos _ hsl hnear⟩
      · refine ⟨_, hafter.trans hsent, ?_⟩
        rw [← htp]
        refine (mirrors_requested_iff hsl).mpr ?_
        rw [ModifyPosition.identity_of_agentRequest hrequest] at hidentity
        exact hcan.asked pos hpos _ hsl hnear hrisk
          (ModifyPosition.pinned_of_verified (requireIdentityPin_saved hcan.username) hidentity)
    · rw [Ne, ModifyPosition.work_eq_missingFields_iff]
      simp [hrequest]

end

/-! ### A take-profit that does not arrive -/

/-- An account of the user `7`. -/
def demoAccount (accountNumber : String) : TradingAccount where
  userId := 7
  accountNumber := accountNumber
  brokerServer := some { serverName := "Demo-1", environment := .demo }
  isDemo := true
  isActive := true
  terminalNodeId := none

/-- The environment of one master and one follower, whose instruments play no part. -/
def demoEnv : Env where
  flags := Flags.allOn
  hostedLiveExecutionEnabled := false
  now := 1000
  killSwitchEngaged := false
  instruments := fun _ _ => none
  brokerRuntimePaused := fun _ => false
  liveExecutionPermitted := fun _ => false
  world :=
    { accounts := fun a => demoAccount (if a = 1 then "1001" else "1002")
      isMaster := fun a => a == 1
      symbolMaps := []
      masterPosition := fun _ => some
        { side := "BUY", priceOpen := some (11 / 10), sl := some 1, tp := some (13 / 10) } }
  positions := fun _ => { ok := false, reason := "", positions := [], readAt := none }

/-- An event of the position `77` of the master. -/
def demoEvent (sequence : ℕ) (eventType : Diff.EventType) : MasterEvent where
  masterAccountId := 1
  sequence := sequence
  eventType := eventType
  positionTicket := 77
  symbol := "EURUSD"
  side := "BUY"
  volumeAfter := 1
  volumeDelta := 0
  observedAt := 990
  volumeBefore := 1
  prevSl := none
  newSl := none

/-- The opening of the follower position, reconciled with the ticket `501`. -/
def demoOpen : CopierReplication where
  masterEventId := 1
  followerId := 1
  requestedOp := .open_
  status := .executionRequested
  targetVolume := some 1
  followerSymbol := "EURUSD"
  translatedSl := some 1
  translatedTp := some (12 / 10)
  sltpTranslationOk := true
  executionJobId := some 1
  followerTicket := some 501
  reconciliationStatus := .matched

/-- The intent that follows the take-profit of the master from `1.2` to `1.3`. -/
def demoModify : CopierReplication where
  masterEventId := 2
  followerId := 1
  requestedOp := .modifySltp
  status := .shadowRecorded
  targetVolume := none
  followerSymbol := "EURUSD"
  translatedSl := some 1
  translatedTp := some (13 / 10)
  sltpTranslationOk := true
  executionJobId := none
  followerTicket := none
  reconciliationStatus := .blank

def demoDb : Db where
  events := (Table.empty.insert 1 (demoEvent 1 .open_)).insert 2 (demoEvent 2 .tpChange)
  followers := Table.empty.insert 1
    { masterAccountId := 1, followerAccountId := 2, enabled := true
      sizing := { mode := .fixedLot } }
  replications := (Table.empty.insert 1 demoOpen).insert 2 demoModify
  authorizations := Table.empty
  jobs := Table.empty

/-- The follower is hosted and has its Windows user. -/
def demoPins : PinRecords where
  hostedPersistentMt5Enabled := true
  readinessProvider := fun _ => "persistent_workspace"
  provisioning := fun _ => some
    { windowsUsername := "guvfx_u_2", provisioned := true, isAdmin := false }

def demoJob : ExecutionJob where
  accountId := 2
  jobType := .modifyPosition
  payload := .ticket (modifyPayload 2 demoModify (demoEvent 2 .tpChange) 501)
  hostedIdempotencyKey := "copier-modify:" ++ toString 2

lemma produces_demoJob : Produces demoEnv demoDb 2 demoModify demoJob := by
  refine ⟨{ masterAccountId := 1, followerAccountId := 2, enabled := true
            sizing := { mode := .fixedLot } }, demoEvent 2 .tpChange, .modify 501, _, ?_, ?_, ?_, rfl, ?_⟩
  · decide +kernel
  · decide +kernel
  · decide +kernel
  · rfl

def demoPosition : Position where
  symbol := "EURUSD"
  type := .buy
  sl := 1
  tp := 12 / 10
  magic := 0

theorem copiedModify_oldTakeProfit :
    (∀ w : World, w.terminal.info = none → w.terminal.position = some demoPosition →
        Delivers demoModify (saved demoPins demoEnv demoJob) w) ↔
      CanDeliver demoModify (hostedWindowsUsernameFor demoPins demoJob.accountId)
        (demoJob.payload.ticket?.getD 0) (saved demoPins demoEnv demoJob) none
        (some demoPosition) :=
  copiedModify demoPins none (some demoPosition) produces_demoJob

/-- The take-profit of the master moves and its stop-loss does not: the bridge finds the stop-loss
in place, the job is done, and the follower has the old take-profit. -/
theorem not_delivers : ¬ ∀ (env : Env) (db : Db) (r : ℕ) (rep : CopierReplication)
    (job : ExecutionJob) (rec : PinRecords) (w : World), Produces env db r rep job →
      Delivers rep (saved rec env job) w := by
  intro h
  have hdelivers := h demoEnv demoDb 2 demoModify demoJob demoPins
    (obliging (saved demoPins demoEnv demoJob) none (some demoPosition)) produces_demoJob
  obtain ⟨pos, hpos, hmirrors⟩ := hdelivers.mirrors (by decide +kernel)
  have hold : (work (obliging (saved demoPins demoEnv demoJob) none (some demoPosition))
      (saved demoPins demoEnv demoJob)).2.map (·.tp) = some (12 / 10) := by
    decide +kernel
  have hnew : levelAt none demoModify.translatedTp = 13 / 10 := by
    decide +kernel
  rw [hpos, Option.map_some, hmirrors.tp] at hold
  have hlevel : levelAt none demoModify.translatedTp = 12 / 10 := Option.some.inj hold
  rw [hnew] at hlevel
  norm_num at hlevel

end CopiedModify
end GuvFX
