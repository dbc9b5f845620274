/-
# The broker health of an account

Every account has one health row, a state machine that is driven by the outcomes of broker-login
validations, by the time since the last success and by the end of the account.  The outcomes are
rows of their own; a call folds the rows above the watermark of the account into the counters, in
the order of their ids, and applies one net transition for the whole batch.

The calls of one account exclude each other by the lock on its row, so each of them is one step of
the system below.  The rows of the attempts are not under that lock: an attempt draws its id when
it is inserted and is seen by the other sessions only after its commit.
-/
import Mathlib.Algebra.Order.Field.Rat
import Mathlib.Data.List.Sort
import GuvFX.Lib.Runs
import GuvFX.Lib.Table
import GuvFX.Lib.Text
import GuvFX.TradeCopier.Account

namespace GuvFX
namespace BrokerHealth

open Runs

/-! ### The states and the row -/

inductive HealthState where
  | unknown
  | healthy
  | degraded
  | stale
  | disconnected
  | tombstoned
  deriving DecidableEq, Repr

namespace HealthState

/-- The states in which a running runtime must be paused. -/
def pauses : HealthState → Bool
  | degraded | stale | disconnected | tombstoned => true
  | unknown | healthy => false

/-- The adverse states from which a success can recover. -/
def recoverable : HealthState → Bool
  | degraded | stale | disconnected => true
  | unknown | healthy | tombstoned => false

/-- The two states of failure, which hold against each other. -/
def failure : HealthState → Bool
  | degraded | disconnected => true
  | unknown | healthy | stale | tombstoned => false

def reason : HealthState → Option String
  | degraded => some "degraded_auth"
  | disconnected => some "broker_unreachable"
  | stale => some "stale_no_recent_success"
  | tombstoned => some "account_disconnected"
  | unknown | healthy => none

end HealthState

structure BrokerAccountHealth where
  state : HealthState := .unknown
  reasonCode : String := ""
  lastSuccessAt : Option Time := none
  lastAttemptAt : Option Time := none
  consecutiveSuccesses : ℕ := 0
  consecutiveFailures : ℕ := 0
  lastConsumedAttemptId : Option ℕ := none
  resumeEligible : Bool := false
  stateVersion : ℕ := 0
  deriving DecidableEq, Repr

/-- The snapshot of a health row that the execution layer consumes. -/
structure Contract where
  state : HealthState
  eligible : Bool
  pauseRequired : Bool
  resumeEligible : Bool
  reasonCode : String
  stateVersion : ℕ
  deriving DecidableEq, Repr

namespace BrokerAccountHealth

def eligible (health : BrokerAccountHealth) : Bool := health.state = .healthy

def pauseRequired (health : BrokerAccountHealth) : Bool := health.state.pauses

def contract (health : BrokerAccountHealth) : Contract where
  state := health.state
  eligible := health.eligible
  pauseRequired := health.pauseRequired
  resumeEligible := health.resumeEligible
  reasonCode := health.reasonCode
  stateVersion := health.stateVersion

end BrokerAccountHealth

structure BrokerAccountValidationAttempt where
  accountId : ℕ
  status : String
  createdAt : Time
  committed : Bool := false
  deriving DecidableEq, Repr

structure Config where
  failureThreshold : ℕ := 3
  successThreshold : ℕ := 2
  staleTimeoutS : Time := 3600
  deriving DecidableEq, Repr

/-! ### The folds -/

/-- What an attempt says about the account. -/
inductive Kind where
  | success
  | failureSoft
  | failureHard
  deriving DecidableEq, Repr

/-- A status that is not recognised counts as a soft failure. -/
def classifyStatus (status : String) : Kind :=
  let s := Text.upper (Text.strip status)
  if s = "HEALTHY" then .success
  else if s = "UNAVAILABLE" then .failureHard
  else .failureSoft

def Kind.adverseState : Kind → HealthState
  | failureHard => .disconnected
  | success | failureSoft => .degraded

def foldOutcome (cfg : Config) (health : BrokerAccountHealth) (kind : Kind) (evidenceAt : Time) :
    BrokerAccountHealth :=
  if health.state = .tombstoned then health
  else
    match kind with
    | .success =>
      let successes := health.consecutiveSuccesses + 1
      { health with
        consecutiveSuccesses := successes
        consecutiveFailures := 0
        lastSuccessAt := some evidenceAt
        state :=
          if health.state.recoverable then
            if cfg.successThreshold ≤ successes then .healthy else health.state
          else if health.state = .unknown then .healthy
          else health.state }
    | .failureSoft | .failureHard =>
      let failures := health.consecutiveFailures + 1
      { health with
        consecutiveFailures := failures
        consecutiveSuccesses := 0
        state :=
          if health.state.failure then health.state
          else if cfg.failureThreshold ≤ failures then kind.adverseState
          else health.state }

/-- A healthy account without a recent success becomes stale. -/
def foldStale (cfg : Config) (now : Time) (health : BrokerAccountHealth) : BrokerAccountHealth :=
  if health.state = .healthy ∧ health.lastSuccessAt.all (fun last => cfg.staleTimeoutS < now - last)
  then { health with state := .stale }
  else health

def consumeAttempt (cfg : Config) (health : BrokerAccountHealth)
    (e : ℕ × BrokerAccountValidationAttempt) : BrokerAccountHealth :=
  { foldOutcome cfg health (classifyStatus e.2.status) e.2.createdAt with
    lastAttemptAt := some e.2.createdAt
    lastConsumedAttemptId := some e.1 }

/-- The one net transition of a call, or nothing where the reason of the new state is missing, which
is an error that rolls the call back. -/
def finalize (oldState : HealthState) (oldVersion : ℕ) (health : BrokerAccountHealth) :
    Option BrokerAccountHealth :=
  if health.state = oldState then some health
  else if health.state = .healthy then
    some { health with
      stateVersion := oldVersion + 1
      reasonCode := if oldState.pauses then "recovered" else "validated"
      resumeEligible := oldState.pauses }
  else
    health.state.reason.map fun reason =>
      { health with stateVersion := oldVersion + 1, reasonCode := reason, resumeEligible := false }

/-! ### The calls -/

/-- What a call reads besides the row: the flag, the account as its caller holds it, the clock and
the thresholds. -/
structure Call where
  enabled : Bool
  disconnected : Bool
  now : Time
  config : Config
  deriving DecidableEq, Repr

def recordValidationOutcome (call : Call) (attempts : List (ℕ × BrokerAccountValidationAttempt))
    (health : BrokerAccountHealth) : Option BrokerAccountHealth :=
  let folded :=
    if call.disconnected then { health with state := .tombstoned }
    else if health.state = .tombstoned then health
    else foldStale call.config call.now (attempts.foldl (consumeAttempt call.config) health)
  finalize health.state health.stateVersion folded

def sweepStale (call : Call) (health : BrokerAccountHealth) : Option BrokerAccountHealth :=
  if health.state = .healthy then
    finalize health.state health.stateVersion (foldStale call.config call.now health)
  else some health

def invalidateForCredentialReplacement (health : BrokerAccountHealth) : BrokerAccountHealth :=
  if health.state = .tombstoned then health
  else
    { health with
      state := .unknown
      stateVersion := if health.state = .unknown then health.stateVersion
        else health.stateVersion + 1
      reasonCode := "credential_replaced"
      consecutiveSuccesses := 0
      consecutiveFailures := 0
      lastSuccessAt := none
      resumeEligible := false }

/-! ### What a call does to the row -/

/-- A fold leaves the version and the resume signal alone, and keeps a tombstoned row tombstoned. -/
structure Folded (h h' : BrokerAccountHealth) : Prop where
  version : h'.stateVersion = h.stateVersion
  resume : h'.resumeEligible = h.resumeEligible
  known : h'.state = .unknown → h.state = .unknown
  terminal : h.state = .tombstoned → h'.state = .tombstoned

lemma Folded.refl (h : BrokerAccountHealth) : Folded h h := ⟨rfl, rfl, id, id⟩

lemma Folded.trans {h₁ h₂ h₃ : BrokerAccountHealth} (h : Folded h₁ h₂) (h' : Folded h₂ h₃) :
    Folded h₁ h₃ where
  version := h'.version.trans h.version
  resume := h'.resume.trans h.resume
  known := fun hu => h.known (h'.known hu)
  terminal := fun ht => h'.terminal (h.terminal ht)

lemma folded_foldOutcome (cfg : Config) (h : BrokerAccountHealth) (kind : Kind) (t : Time) :
    Folded h (foldOutcome cfg h kind t) := by
  by_cases ht : h.state = .tombstoned
  · have hsame : foldOutcome cfg h kind t = h := by cases kind <;> exact if_pos ht
    rw [hsame]
    exact .refl h
  · cases kind with
    | success =>
      rw [foldOutcome, if_neg ht]
      refine ⟨rfl, rfl, ?_, fun htomb => absurd htomb ht⟩
      dsimp only
      split_ifs with hrec hthr hunknown
      · exact fun hu => nomatch hu
      · exact id
      · exact fun hu => nomatch hu
      · exact id
    | failureSoft | failureHard =>
      rw [foldOutcome, if_neg ht]
      refine ⟨rfl, rfl, ?_, fun htomb => absurd htomb ht⟩
      dsimp only [Kind.adverseState]
      split_ifs
      · exact id
      · exact fun hu => nomatch hu
      · exact id

lemma folded_foldStale (cfg : Config) (now : Time) (h : BrokerAccountHealth) :
    Folded h (foldStale cfg now h) := by
  rw [foldStale]
  split_ifs with hstale
  · refine ⟨rfl, rfl, (fun hu => nomatch hu), fun ht => ?_⟩
    rw [hstale.1] at ht
    cases ht
  · exact .refl h

lemma folded_consume (cfg : Config) (attempts : List (ℕ × BrokerAccountValidationAttempt))
    (h : BrokerAccountHealth) : Folded h (attempts.foldl (consumeAttempt cfg) h) := by
  induction attempts generalizing h with
  | nil => exact .refl h
  | cons e attempts ih =>
    have hfold := folded_foldOutcome cfg h (classifyStatus e.2.status) e.2.createdAt
    have hone : Folded h (consumeAttempt cfg h e) :=
      ⟨hfold.version, hfold.resume, hfold.known, hfold.terminal⟩
    exact hone.trans (ih _)

/-- How a call changes the row of an account: the state stays, and a resume signal is not raised,
or there is one net transition with its version, away from a state that is not terminal. -/
inductive Moves (h h' : BrokerAccountHealth) : Prop
  | stay (state : h'.state = h.state) (version : h'.stateVersion = h.stateVersion)
      (resume : h'.resumeEligible = true → h.resumeEligible = true)
  | net (state : h'.state ≠ h.state) (live : h.state ≠ .tombstoned)
      (version : h'.stateVersion = h.stateVersion + 1)
      (resume : h'.resumeEligible = true → h'.state = .healthy ∧ h.state.pauses = true)

lemma Moves.refl (h : BrokerAccountHealth) : Moves h h := .stay rfl rfl id

lemma finalize_moves {h h' : BrokerAccountHealth} (hfold : Folded h h') :
    ∃ r, finalize h.state h.stateVersion h' = some r ∧ Moves h r ∧
      r.lastConsumedAttemptId = h'.lastConsumedAttemptId := by
  rw [finalize]
  by_cases hsame : h'.state = h.state
  · rw [if_pos hsame]
    refine ⟨h', rfl, .stay hsame hfold.version fun hr => ?_, rfl⟩
    rw [← hfold.resume, hr]
  · have hlive : h.state ≠ .tombstoned := by
      intro ht
      exact hsame ((hfold.terminal ht).trans ht.symm)
    rw [if_neg hsame]
    by_cases hhealthy : h'.state = .healthy
    · rw [if_pos hhealthy]
      exact ⟨_, rfl, .net hsame hlive rfl fun hr => ⟨hhealthy, hr⟩, rfl⟩
    · rw [if_neg hhealthy]
      have hreason : ∃ reason, h'.state.reason = some reason := by
        cases hs : h'.state with
        | unknown => exact absurd (hs.trans (hfold.known hs).symm) hsame
        | healthy => exact absurd hs hhealthy
        | degraded | stale | disconnected | tombstoned => exact ⟨_, rfl⟩
      obtain ⟨reason, hreason⟩ := hreason
      rw [hreason]
      exact ⟨_, rfl, .net hsame hlive rfl (fun hr => nomatch hr), rfl⟩

lemma lastConsumed_consume (cfg : Config) (h : BrokerAccountHealth)
    (attempts : List (ℕ × BrokerAccountValidationAttempt)) :
    (attempts.foldl (consumeAttempt cfg) h).lastConsumedAttemptId =
      (attempts.getLast?.map Prod.fst).or h.lastConsumedAttemptId := by
  induction attempts using List.reverseRecOn with
  | nil => rfl
  | append_singleton attempts e ih => simp [consumeAttempt]

lemma lastConsumed_foldStale (cfg : Config) (now : Time) (h : BrokerAccountHealth) :
    (foldStale cfg now h).lastConsumedAttemptId = h.lastConsumedAttemptId := by
  rw [foldStale]
  split_ifs <;> rfl

lemma recordValidationOutcome_moves (call : Call)
    (attempts : List (ℕ × BrokerAccountValidationAttempt)) (h : BrokerAccountHealth) :
    ∃ r, recordValidationOutcome call attempts h = some r ∧ Moves h r ∧
      r.lastConsumedAttemptId =
        if call.disconnected = true ∨ h.state = .tombstoned then h.lastConsumedAttemptId
        else (attempts.getLast?.map Prod.fst).or h.lastConsumedAttemptId := by
  rw [recordValidationOutcome]
  by_cases hdisc : call.disconnected = true
  · rw [if_pos hdisc, if_pos (.inl hdisc)]
    exact finalize_moves ⟨rfl, rfl, (fun hu => nomatch hu), fun _ => rfl⟩
  · rw [if_neg hdisc]
    by_cases ht : h.state = .tombstoned
    · rw [if_pos ht, if_pos (.inr ht)]
      exact finalize_moves (.refl h)
    · rw [if_neg ht, if_neg (by rintro (hd | hs); exacts [hdisc hd, ht hs])]
      have hfold := (folded_consume call.config attempts h).trans
        (folded_foldStale call.config call.now _)
      obtain ⟨r, hr, hmoves, hlast⟩ := finalize_moves hfold
      refine ⟨r, hr, hmoves, ?_⟩
      rw [hlast, lastConsumed_foldStale, lastConsumed_consume]

lemma sweepStale_moves (call : Call) (h : BrokerAccountHealth) :
    ∃ r, sweepStale call h = some r ∧ Moves h r ∧
      r.lastConsumedAttemptId = h.lastConsumedAttemptId := by
  rw [sweepStale]
  split_ifs
  · obtain ⟨r, hr, hmoves, hlast⟩ := finalize_moves (folded_foldStale call.config call.now h)
    exact ⟨r, hr, hmoves, by rw [hlast, lastConsumed_foldStale]⟩
  · exact ⟨h, rfl, .refl h, rfl⟩

lemma invalidate_moves (h : BrokerAccountHealth) :
    Moves h (invalidateForCredentialReplacement h) ∧
      (invalidateForCredentialReplacement h).lastConsumedAttemptId = h.lastConsumedAttemptId := by
  rw [invalidateForCredentialReplacement]
  by_cases ht : h.state = .tombstoned
  · rw [if_pos ht]
    exact ⟨.refl h, rfl⟩
  · rw [if_neg ht]
    refine ⟨?_, rfl⟩
    by_cases hu : h.state = .unknown
    · exact .stay hu.symm (if_pos hu) fun hr => nomatch hr
    · exact .net (fun hs => hu hs.symm) ht (if_neg hu) fun hr => nomatch hr

/-! ### The system -/

structure State where
  now : Time
  attempts : Table BrokerAccountValidationAttempt
  health : ℕ → Option BrokerAccountHealth

inductive Action where
  | tick (d : ℕ)
  | insertAttempt (account : ℕ) (status : String)
  | commitAttempt (id : ℕ)
  | recordValidationOutcome (account : ℕ) (call : Call)
  | sweepStale (account : ℕ) (call : Call)
  | invalidate (account : ℕ) (enabled : Bool)

namespace State

/-- No attempt and no health row. -/
def initial (now : Time) : State := ⟨now, .empty, fun _ => none⟩

def healthOf (s : State) (account : ℕ) : BrokerAccountHealth := (s.health account).getD {}

def watermark (s : State) (account : ℕ) : ℕ :=
  (s.healthOf account).lastConsumedAttemptId.getD 0

/-- The attempts above the watermark that a call can see, in the order of their ids. -/
def pendingAttempts (s : State) (account : ℕ) : List (ℕ × BrokerAccountValidationAttempt) :=
  (s.attempts.filter fun id attempt =>
    attempt.accountId = account ∧ attempt.committed ∧ s.watermark account < id).insertionSort
      fun e e' => e.1 ≤ e'.1

def withAttempts (s : State) (attempts : Table BrokerAccountValidationAttempt) : State :=
  { s with attempts }

/-- Save the row of an account; a call that raised is rolled back. -/
def save (s : State) (account : ℕ) : Option BrokerAccountHealth → State
  | some health => { s with health := Function.update s.health account (some health) }
  | none => s

end State

def step (s : State) : Action → State
  | .tick d => { s with now := s.now + d }
  | .insertAttempt account status =>
    s.withAttempts (s.attempts.insert s.attempts.fresh
      { accountId := account, status := status, createdAt := s.now })
  | .commitAttempt id =>
    s.withAttempts (s.attempts.modify id fun attempt => { attempt with committed := true })
  | .recordValidationOutcome account call =>
    if call.enabled then
      s.save account
        (recordValidationOutcome call (s.pendingAttempts account) (s.healthOf account))
    else s
  | .sweepStale account call =>
    match s.health account with
    | some health => if call.enabled then s.save account (sweepStale call health) else s
    | none => s
  | .invalidate account enabled =>
    match s.health account with
    | some health =>
      if enabled then s.save account (some (invalidateForCredentialReplacement health)) else s
    | none => s

example (s : State) (account : ℕ) (enabled : Bool) (h : s.health account = none) :
    step s (.invalidate account enabled) = s := by
  simp [step, h]

end BrokerHealth
end GuvFX
