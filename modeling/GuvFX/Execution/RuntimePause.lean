/-
# The pause of a runtime by its broker health

The execution layer mirrors the health contract of an account in a pause record.  A processing call
reads the contract, returns at once when the contract asks for no pause and no record is paused, and
otherwise reconciles the record under its lock; versions that the record has already processed are
ignored.  Only an operator clears a pause, in a call that holds the lock from its first read to its
write and checks the live contract in between.

A call that returns at once leaves no trace in the record, so it does not hold back an older call
that has read an earlier contract and has not reconciled yet.
-/
import GuvFX.Reliability.BrokerHealthRuns

namespace GuvFX
namespace RuntimePause

open Runs
open BrokerHealth (HealthState BrokerAccountHealth Contract)

/-! ### The record -/

structure BrokerRuntimePause where
  paused : Bool := false
  reasonCode : String := ""
  /-- The version that caused the current pause. -/
  sourceStateVersion : ℕ := 0
  lastProcessedVersion : ℕ := 0
  pausedAt : Option Time := none
  resumeEligible : Bool := false
  resumedAt : Option Time := none
  /-- The version that authorised the last resume. -/
  resumedStateVersion : ℕ := 0
  deriving DecidableEq, Repr

def processedOf (row : Option BrokerRuntimePause) : ℕ := (row.getD {}).lastProcessedVersion

def pausedOf (row : Option BrokerRuntimePause) : Bool := row.any (·.paused)

def srHealthStateChanged : String := "broker_health_state_changed"

def srResumeNotEligible : String := "broker_resume_not_eligible"

def healthToPauseReason : HealthState → String
  | .degraded => "broker_health_degraded"
  | .stale => "broker_health_stale"
  | .disconnected => "broker_health_disconnected"
  | .tombstoned => "broker_account_tombstoned"
  | .unknown | .healthy => srHealthStateChanged

/-! ### Processing a contract -/

def applyContract (contract : Contract) (now : Time) (rec : BrokerRuntimePause) :
    BrokerRuntimePause :=
  if contract.pauseRequired then
    { rec with
      lastProcessedVersion := contract.stateVersion
      paused := true
      reasonCode := healthToPauseReason contract.state
      sourceStateVersion := contract.stateVersion
      resumeEligible := false
      resumedAt := none
      pausedAt := if rec.paused then rec.pausedAt else some now }
  else if rec.paused && contract.eligible && !rec.resumeEligible then
    { rec with lastProcessedVersion := contract.stateVersion, resumeEligible := true }
  else { rec with lastProcessedVersion := contract.stateVersion }

/-- The record ignores an older version, and the version it has processed already. -/
def ignores (row : Option BrokerRuntimePause) (contract : Contract) : Bool :=
  row.any fun rec => contract.stateVersion ≤ rec.lastProcessedVersion

/-- The part of the processing that runs under the lock; a missing record is created. -/
def reconcile (contract : Contract) (now : Time) (row : Option BrokerRuntimePause) :
    Option BrokerRuntimePause :=
  if ignores row contract then row else some (applyContract contract now (row.getD {}))

/-! ### The controlled resume -/

structure ResumeResult where
  resumed : Bool
  idempotent : Bool
  refused : Bool
  reasonCode : String
  processedStateVersion : ℕ
  currentStateVersion : ℕ
  deriving DecidableEq, Repr

namespace ResumeResult

def refuse (reason : String) (processed current : ℕ) : ResumeResult :=
  ⟨false, false, true, reason, processed, current⟩

end ResumeResult

/-- The verification and the write of a resume, with the refusal of the execution gate and the live
contract as they were read under the lock. -/
def requestBrokerRuntimeResume (gate : Option String) (contract : Option Contract) (now : Time)
    (row : Option BrokerRuntimePause) : Option BrokerRuntimePause × ResumeResult :=
  match row with
  | none => (none, .refuse srResumeNotEligible 0 0)
  | some rec =>
    if !rec.paused then
      (some rec, ⟨false, true, false, "", rec.resumedStateVersion, rec.resumedStateVersion⟩)
    else
      match gate, contract with
      | some reason, _ => (some rec, .refuse reason rec.sourceStateVersion 0)
      | none, none => (some rec, .refuse srResumeNotEligible rec.sourceStateVersion 0)
      | none, some c =>
        if c.pauseRequired || !c.eligible then
          (some rec, .refuse (healthToPauseReason c.state) c.stateVersion c.stateVersion)
        else if c.stateVersion < rec.sourceStateVersion then
          (some rec, .refuse srHealthStateChanged c.stateVersion rec.sourceStateVersion)
        else
          (some { rec with
            paused := false
            resumedAt := some now
            resumedStateVersion := c.stateVersion
            lastProcessedVersion := max rec.lastProcessedVersion c.stateVersion
            resumeEligible := false
            reasonCode := "" },
            ⟨true, false, false, "", c.stateVersion, c.stateVersion⟩)

/-! ### What the two calls do to the record -/

/-- The two records differ in their watermarks at most. -/
def SamePause (row row' : Option BrokerRuntimePause) : Prop :=
  { row.getD {} with lastProcessedVersion := 0 } = { row'.getD {} with lastProcessedVersion := 0 }

lemma SamePause.refl (row : Option BrokerRuntimePause) : SamePause row row := rfl

lemma SamePause.paused {row row' : Option BrokerRuntimePause} (h : SamePause row row') :
    pausedOf row = pausedOf row' := by
  have hpaused : ∀ row : Option BrokerRuntimePause, pausedOf row = (row.getD {}).paused := by
    rintro (_ | rec) <;> rfl
  rw [hpaused, hpaused]
  have heq := congrArg BrokerRuntimePause.paused h
  exact heq

lemma lastProcessedVersion_applyContract (contract : Contract) (now : Time)
    (rec : BrokerRuntimePause) :
    (applyContract contract now rec).lastProcessedVersion = contract.stateVersion := by
  rw [applyContract]
  split_ifs <;> rfl

lemma paused_applyContract (contract : Contract) (now : Time) (rec : BrokerRuntimePause) :
    (applyContract contract now rec).paused = (contract.pauseRequired || rec.paused) := by
  rw [applyContract]
  cases hc : contract.pauseRequired with
  | true => rfl
  | false =>
    rw [if_neg Bool.false_ne_true]
    split_ifs <;> rfl

lemma samePause_reconcile {contract : Contract} {now : Time} {row : Option BrokerRuntimePause}
    (h : contract.pauseRequired = false) (hpaused : pausedOf row = false) :
    SamePause row (reconcile contract now row) := by
  have hrec : (row.getD {}).paused = false := by
    cases row with
    | none => rfl
    | some rec => exact hpaused
  rw [reconcile]
  split_ifs
  · exact .refl row
  · rw [applyContract, if_neg (by rw [h]; exact Bool.false_ne_true), if_neg (by simp [hrec])]
    rfl

lemma lt_of_not_ignores {contract : Contract} {rec : BrokerRuntimePause}
    (h : ¬ ignores (some rec) contract = true) :
    rec.lastProcessedVersion < contract.stateVersion := by
  simpa [ignores] using h

lemma reconcile_cases (contract : Contract) (now : Time) (row : Option BrokerRuntimePause) :
    (ignores row contract = true ∧ reconcile contract now row = row) ∨
      (¬ ignores row contract = true ∧ ∃ rec, reconcile contract now row = some rec ∧
        rec.lastProcessedVersion = contract.stateVersion ∧
        rec.paused = (contract.pauseRequired || pausedOf row)) := by
  by_cases hig : ignores row contract = true
  · exact .inl ⟨hig, if_pos hig⟩
  · refine .inr ⟨hig, _, if_neg hig, lastProcessedVersion_applyContract _ _ _, ?_⟩
    rw [paused_applyContract]
    cases row <;> rfl

lemma requestResume_cases (gate : Option String) (contract : Option Contract) (now : Time)
    (row : Option BrokerRuntimePause) :
    (∃ rec c, row = some rec ∧ contract = some c ∧ rec.paused = true ∧
      rec.sourceStateVersion ≤ c.stateVersion ∧
      (requestBrokerRuntimeResume gate contract now row).2.resumed = true ∧
      ∃ rec', (requestBrokerRuntimeResume gate contract now row).1 = some rec' ∧
        rec'.paused = false ∧
        rec'.lastProcessedVersion = max rec.lastProcessedVersion c.stateVersion) ∨
    ((requestBrokerRuntimeResume gate contract now row).1 = row ∧
      (requestBrokerRuntimeResume gate contract now row).2.resumed = false) := by
  cases row with
  | none => exact .inr ⟨rfl, rfl⟩
  | some rec =>
    cases hpaused : rec.paused with
    | false =>
      refine .inr ?_
      simp only [requestBrokerRuntimeResume, hpaused, Bool.not_false, if_true, and_self]
    | true =>
      simp only [requestBrokerRuntimeResume, hpaused, Bool.not_true, Bool.false_eq_true, if_false]
      cases gate with
      | some reason => exact .inr ⟨rfl, rfl⟩
      | none =>
        cases contract with
        | none => exact .inr ⟨rfl, rfl⟩
        | some c =>
          dsimp only
          split_ifs with helig hsource
          · exact .inr ⟨rfl, rfl⟩
          · exact .inr ⟨rfl, rfl⟩
          · exact .inl ⟨rec, c, rfl, rfl, hpaused, Nat.not_lt.mp hsource, rfl, _, rfl, rfl, rfl⟩

/-! ### The system -/

inductive Processing where
  | idle
  | read (contract : Contract)
  /-- The call has not returned at once, and waits for the lock. -/
  | admitted (contract : Contract)

inductive Resume where
  | idle
  | locked
  | verified (gate : Option String) (contract : Option Contract)
  | done (result : ResumeResult)

structure State where
  health : Option BrokerAccountHealth
  pause : Option BrokerRuntimePause
  /-- The resume that holds the lock on the record. -/
  lock : Option ℕ
  calls : ℕ → Processing
  resumes : ℕ → Resume

inductive Action where
  | changeHealth (health : BrokerAccountHealth)
  | readContract (p : ℕ) (enabled : Bool)
  | checkPaused (p : ℕ)
  | reconcile (p : ℕ) (now : Time)
  | beginResume (r : ℕ) (enabled : Bool)
  | verifyResume (r : ℕ) (enabled : Bool) (gate : Option String)
  | commitResume (r : ℕ) (now : Time)

/-- A health row follows another: its version is higher, or its state is the same. -/
def Supersedes (health : BrokerAccountHealth) : Option BrokerAccountHealth → Prop
  | none => True
  | some old => old.stateVersion < health.stateVersion ∨
      old.stateVersion = health.stateVersion ∧ old.state = health.state

instance (health : BrokerAccountHealth) :
    ∀ old : Option BrokerAccountHealth, Decidable (Supersedes health old)
  | none => inferInstanceAs (Decidable True)
  | some old => inferInstanceAs (Decidable (old.stateVersion < health.stateVersion ∨
      old.stateVersion = health.stateVersion ∧ old.state = health.state))

namespace State

/-- No health row, no record and no call. -/
def initial : State := ⟨none, none, none, fun _ => .idle, fun _ => .idle⟩

def getContract (s : State) : Option Contract := s.health.map (·.contract)

def isPaused (s : State) : Bool := pausedOf s.pause

/-- The watermark of the record. -/
def processed (s : State) : ℕ := processedOf s.pause

def liveVersion (s : State) : ℕ := (s.health.map (·.stateVersion)).getD 0

def withCall (s : State) (p : ℕ) (call : Processing) : State :=
  { s with calls := Function.update s.calls p call }

def withResume (s : State) (r : ℕ) (resume : Resume) : State :=
  { s with resumes := Function.update s.resumes r resume }

end State

def step (s : State) : Action → State
  | .changeHealth health => if Supersedes health s.health then { s with health := some health } else s
  | .readContract p enabled =>
    match s.calls p, s.getContract with
    | .idle, some contract => if enabled then s.withCall p (.read contract) else s
    | _, _ => s
  | .checkPaused p =>
    match s.calls p with
    | .read contract =>
      if contract.pauseRequired || s.isPaused then s.withCall p (.admitted contract)
      else s.withCall p .idle
    | _ => s
  | .reconcile p now =>
    match s.calls p, s.lock with
    | .admitted contract, none =>
      { s.withCall p .idle with pause := RuntimePause.reconcile contract now s.pause }
    | _, _ => s
  | .beginResume r enabled =>
    match s.resumes r with
    | .idle | .done _ =>
      if enabled then
        match s.lock, s.pause with
        | none, some _ => { s.withResume r .locked with lock := some r }
        | none, none => s.withResume r (.done (.refuse srResumeNotEligible 0 0))
        | some _, _ => s
      else s.withResume r (.done (.refuse srResumeNotEligible 0 0))
    | _ => s
  | .verifyResume r enabled gate =>
    match s.resumes r with
    | .locked => s.withResume r (.verified gate (if enabled then s.getContract else none))
    | _ => s
  | .commitResume r now =>
    match s.resumes r with
    | .verified gate contract =>
      let (pause, result) := requestBrokerRuntimeResume gate contract now s.pause
      { s.withResume r (.done result) with pause := pause, lock := none }
    | _ => s

example (s : State) (p : ℕ) (h : s.calls p = .idle) : step s (.checkPaused p) = s := by
  simp [step, h]

end RuntimePause
end GuvFX
