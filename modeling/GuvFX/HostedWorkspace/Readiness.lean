/-
# When a healthy terminal becomes ready

Observations are ingested into one workspace, one after the other.  A healthy observation asks for the
ready state whatever the state before it was, and the graph has that move from two of the states that
observations can reach.  From these the first healthy observation makes the workspace ready and the
next ones keep it so; from the others it holds the workspace where it is, and so does every healthy
observation after it.
-/
import GuvFX.HostedWorkspace.WorkspaceHistory

namespace GuvFX
namespace HostedWorkspace

open WorkspaceLifecycleState

/-! ### Ingesting one observation -/

/-- An observation with what is passed along with it. -/
structure Ingestion where
  observation : WorkspaceObservation
  observationVersion : Version
  correlationId : String
  source : String
  now : ℕ
  recorder : Bool
  deriving DecidableEq, Repr

/-- Decide an observation against the stored state and write the decision.  There is no result when
the subsystem is switched off. -/
def ingestObservation (db : Database) (enabled : Bool) (workspace : Instance) (i : Ingestion) :
    Option (Database × PersistResult) :=
  if enabled then
    let call : Call := ⟨workspace, withPremise db workspace i.observation, i.observationVersion,
      i.correlationId, i.source⟩
    call.persist db i.now i.recorder
  else none

def ingestAll (workspace : Instance) (db : Database) (is : List Ingestion) : Database :=
  is.foldl (fun db i => ((ingestObservation db true workspace i).map Prod.fst).getD db) db

/-- The states that the live observer polls, apart from the one that only an order leads to. -/
def observableStates : List WorkspaceLifecycleState :=
  [waitingForLogin, connected, executionReady, disconnected, recovering]

variable {db : Database} {pk : ℕ} (row : HostedMt5Workspace) {ws : HostedMt5Workspace} {i : Ingestion}

def Ingestion.against (i : Ingestion) (ws : HostedMt5Workspace) : WorkspaceObservation :=
  { i.observation with
    previousState := ws.canonicalState
    previousReason := ws.canonicalReason }

/-- The decision of the observation against a stored row. -/
def Ingestion.decide (i : Ingestion) (ws : HostedMt5Workspace) : WorkspaceDecision :=
  deriveWorkspaceDecision (i.against ws)

lemma withPremise_stored (hget : db.workspaces.get pk = some ws) (i : Ingestion) :
    withPremise db ⟨some pk, row⟩ i.observation = i.against ws := by
  unfold withPremise
  simp [hget, Ingestion.against]

lemma ingest_state (hget : db.workspaces.get pk = some ws) (i : Ingestion) :
    ∃ ws', (((ingestObservation db true ⟨some pk, row⟩ i).map Prod.fst).getD db).workspaces.get pk =
        some ws' ∧
      (ws'.canonicalState = ws.canonicalState ∨ ws'.canonicalState = (i.decide ws).nextState) := by
  unfold ingestObservation Call.persist
  rw [if_pos rfl, withPremise_stored row hget]
  dsimp only
  cases hout : persistWorkspaceDecision db ⟨some pk, row⟩ (i.against ws)
      (deriveWorkspaceDecision (i.against ws)) i.observationVersion i.correlationId i.source i.now
      i.recorder with
  | none => exact ⟨ws, hget, .inl rfl⟩
  | some out =>
    rcases persist_cases hout with ⟨hsame, -⟩ |
      ⟨pk', locked, version, corr, src, hpk, hget', -, -, -, happ⟩
    · refine ⟨ws, ?_, .inl rfl⟩
      rw [Option.map_some, Option.getD_some, hsame]
      exact hget
    · cases hpk
      obtain rfl : ws = locked := Option.some.inj (hget.symm.trans hget')
      obtain ⟨saved, hs, hws, -⟩ := applyDecision_cases db pk ws version (i.against ws) (i.decide ws)
        corr src i.now i.recorder
      refine ⟨saved, ?_, .inr hs.state⟩
      have hdb := congrArg Prod.fst happ
      dsimp only at hdb
      rw [Option.map_some, Option.getD_some, hdb]
      refine (congrArg (fun t => t.get pk) hws).trans ?_
      rw [Table.get_modify_self, hget]
      rfl

lemma ingest_newer (hget : db.workspaces.get pk = some ws) {v : ℕ}
    (hv : i.observationVersion = .int v) (hnew : ws.observationVersion < v) (hmax : v ≤ maxVersion) :
    ∃ ws', (((ingestObservation db true ⟨some pk, row⟩ i).map Prod.fst).getD db).workspaces.get pk =
        some ws' ∧
      ws'.canonicalState = (i.decide ws).nextState ∧ ws'.observationVersion = v := by
  have hcoerce : coerceVersion i.observationVersion = some v := by
    rw [hv, coerceVersion, if_pos ⟨by omega, by omega⟩, Int.toNat_natCast]
  have hlegal : (evaluateWorkspaceTransition ws.canonicalState
      (deriveWorkspaceDecision (i.against ws)).nextState).1 = true :=
    legalMove_iff.mp (derive_legalMove (i.against ws))
  obtain ⟨saved, hs, hws, -⟩ := applyDecision_cases db pk ws v (i.against ws) (i.decide ws)
    (Text.clip 128 i.correlationId)
    (Text.clip 64 (if i.source = "" then "hosted_workspace.persistence" else i.source)) i.now
    i.recorder
  refine ⟨saved, ?_, hs.state, hs.version⟩
  unfold ingestObservation Call.persist persistWorkspaceDecision
  rw [if_pos rfl, withPremise_stored row hget]
  simp only [hcoerce, hget, Nat.not_le.mpr hnew, if_false, hlegal, Bool.true_eq_false, and_false,
    Option.map_some, Option.getD_some]
  refine (congrArg (fun t => t.get pk) hws).trans ?_
  rw [Table.get_modify_self, hget]
  rfl

/-! ### The states that observations reach -/

/-- What observations make of a workspace that the observer polls: it is suspended, or is polled still. -/
def reachableStates : List WorkspaceLifecycleState := suspended :: observableStates

lemma derive_reachable {obs : WorkspaceObservation} (h : obs.previousState ∈ reachableStates) :
    (deriveWorkspaceDecision obs).nextState ∈ reachableStates := by
  rcases derive_cases obs with ⟨-, hnext, -⟩ | ⟨-, hnext, -⟩
  · rw [hnext]
    rcases targetFor_cases obs with hmem | hheld
    · revert hmem
      cases (targetFor obs).1 <;> decide
    · rw [hheld]
      exact h
  · rw [hnext]
    exact h

lemma ingestAll_reachable (hget : db.workspaces.get pk = some ws)
    (h : ws.canonicalState ∈ reachableStates) (is : List Ingestion) :
    ∃ ws', (ingestAll ⟨some pk, row⟩ db is).workspaces.get pk = some ws' ∧
      ws'.canonicalState ∈ reachableStates := by
  induction is generalizing db ws with
  | nil => exact ⟨ws, hget, h⟩
  | cons i is ih =>
    obtain ⟨ws', hget', hstate⟩ := ingest_state row hget i
    refine ih hget' ?_
    rcases hstate with hsame | hmoved
    · rw [hsame]
      exact h
    · rw [hmoved]
      exact derive_reachable h

/-! ### Healthy observations -/

/-- Healthy observations, each newer than the one before, the first newer than `v`. -/
def HealthyFrom : ℕ → List Ingestion → Prop
  | _, [] => True
  | v, i :: is => allExecutionConditions i.observation = true ∧
      ∃ v', i.observationVersion = .int (v' : ℕ) ∧ v < v' ∧ v' ≤ maxVersion ∧ HealthyFrom v' is

lemma ingestAll_healthy {is : List Ingestion} {v : ℕ} (hget : db.workspaces.get pk = some ws)
    (hv : ws.observationVersion = v) (his : HealthyFrom v is) :
    ∃ ws', (ingestAll ⟨some pk, row⟩ db is).workspaces.get pk = some ws' ∧
      ws'.canonicalState = if is ≠ [] ∧ LegalMove ws.canonicalState executionReady then executionReady
        else ws.canonicalState := by
  induction is generalizing db ws v with
  | nil => exact ⟨ws, hget, by simp⟩
  | cons i is ih =>
    obtain ⟨hcond, v', hversion, hnew, hmax, hrest⟩ := his
    obtain ⟨ws', hget', hstate, hstored⟩ :=
      ingest_newer row hget hversion (hv ▸ hnew) hmax
    have hnext : ws'.canonicalState =
        if LegalMove ws.canonicalState executionReady then executionReady else ws.canonicalState :=
      hstate.trans (derive_of_conditions hcond)
    obtain ⟨ws'', hget'', hfinal⟩ := ih hget' hstored hrest
    refine ⟨ws'', hget'', ?_⟩
    rw [hfinal, hnext]
    by_cases hlegal : LegalMove ws.canonicalState executionReady
    · have hself : LegalMove executionReady executionReady := .inl rfl
      simp [hlegal]
    · simp [hlegal]

/-- After the observations `is`, healthy ones make the workspace ready, from the first one on, exactly
if it is then connected or ready; in the other states they hold it. -/
theorem readyAfter (db : Database) (pk : ℕ) (row ws : HostedMt5Workspace)
    (hget : db.workspaces.get pk = some ws) (hobservable : ws.canonicalState ∈ observableStates)
    (is : List Ingestion) :
    ∃ now, (ingestAll ⟨some pk, row⟩ db is).workspaces.get pk = some now ∧
      ∀ healthy, HealthyFrom now.observationVersion healthy → healthy ≠ [] →
        ∃ later, (ingestAll ⟨some pk, row⟩ db (is ++ healthy)).workspaces.get pk = some later ∧
          (later.canonicalState = executionReady ↔
            now.canonicalState = connected ∨ now.canonicalState = executionReady) ∧
          (¬ (now.canonicalState = connected ∨ now.canonicalState = executionReady) →
            later.canonicalState = now.canonicalState) := by
  obtain ⟨now, hnow, hreach⟩ := ingestAll_reachable row hget
    (List.mem_cons_of_mem _ hobservable) is
  refine ⟨now, hnow, fun healthy hhealthy hne => ?_⟩
  obtain ⟨later, hlater, hstate⟩ := ingestAll_healthy row hnow rfl hhealthy
  refine ⟨later, ?_, ?_⟩
  · rw [ingestAll, List.foldl_append]
    exact hlater
  · -- the states that observations reach, one by one
    simp only [hne, ne_eq, not_false_eq_true, true_and] at hstate
    rw [hstate]
    revert hreach
    cases now.canonicalState <;> decide

/-! ### A workspace that is waiting, and two that were lost -/

/-- A terminal in order. -/
def healthyObservation : WorkspaceObservation :=
  ⟨true, true, true, true, true, true, .provisioning, .none, none⟩

/-- As many healthy observations as are asked for, after the version `v`. -/
def healthyRun : ℕ → ℕ → List Ingestion
  | _, 0 => []
  | v, n + 1 => ⟨healthyObservation, .int (v + 1 : ℕ), "", "", v + 1, true⟩ :: healthyRun (v + 1) n

lemma healthyRun_healthy {v n : ℕ} (h : v + n ≤ maxVersion) : HealthyFrom v (healthyRun v n) := by
  induction n generalizing v with
  | zero => trivial
  | succ n ih => exact ⟨rfl, v + 1, rfl, Nat.lt_succ_self v, by omega, ih (by omega)⟩

lemma length_healthyRun (v n : ℕ) : (healthyRun v n).length = n := by
  induction n generalizing v with
  | zero => rfl
  | succ n ih => exact congrArg Nat.succ (ih (v + 1))

def inState (s : WorkspaceLifecycleState) : HostedMt5Workspace :=
  { workspaceUuid := ⟨"00000000-0000-0000-0000-000000000001", by decide⟩
    tradingAccountId := 1
    canonicalState := s }

def oneWorkspace (s : WorkspaceLifecycleState) : Database :=
  { workspaces := Table.empty.insert 1 (inState s) }

theorem readyAfter_connected :
    ∃ later, (ingestAll ⟨some 1, inState connected⟩ (oneWorkspace connected)
        ([] ++ healthyRun 0 2)).workspaces.get 1 = some later ∧
      later.canonicalState = executionReady := by
  obtain ⟨now, hnow, h⟩ := readyAfter (oneWorkspace connected) 1 (inState connected)
    (inState connected) rfl (by decide) []
  obtain rfl : inState connected = now := Option.some.inj hnow
  obtain ⟨later, hlater, hready, -⟩ :=
    h (healthyRun 0 2) (healthyRun_healthy (by decide)) (by simp [healthyRun])
  exact ⟨later, hlater, hready.mpr (.inl rfl)⟩

/-- A bounded number of healthy observations makes a workspace in the state `s` ready. -/
def EventuallyReady (s : WorkspaceLifecycleState) : Prop :=
  ∀ (db : Database) (pk : ℕ) (row ws : HostedMt5Workspace), db.workspaces.get pk = some ws →
    ws.canonicalState = s → ∃ bound ≤ maxVersion, ∀ healthy,
      HealthyFrom ws.observationVersion healthy → bound ≤ healthy.length →
        ∀ later, (ingestAll ⟨some pk, row⟩ db healthy).workspaces.get pk = some later →
          later.canonicalState = executionReady

lemma not_eventuallyReady {s : WorkspaceLifecycleState} (hs : ¬ LegalMove s executionReady) :
    ¬ EventuallyReady s := by
  intro h
  have hget : (oneWorkspace s).workspaces.get 1 = some (inState s) := rfl
  obtain ⟨bound, hbound, hready⟩ := h (oneWorkspace s) 1 (inState s) (inState s) hget rfl
  have hhealthy : HealthyFrom 0 (healthyRun 0 bound) := healthyRun_healthy (by omega)
  obtain ⟨later, hlater, hstate⟩ := ingestAll_healthy (inState s) hget rfl hhealthy
  rw [if_neg fun hand => hs hand.2] at hstate
  have hfinal := hready _ hhealthy (length_healthyRun 0 bound).ge later hlater
  exact hs (.inl (hfinal.symm.trans hstate))

/-- No number of healthy observations is enough for a workspace that waits for its login, or that has
lost its link. -/
theorem heldForEver :
    ¬ EventuallyReady waitingForLogin ∧ ¬ EventuallyReady disconnected ∧
      ¬ EventuallyReady recovering :=
  ⟨not_eventuallyReady (by decide), not_eventuallyReady (by decide), not_eventuallyReady (by decide)⟩

end HostedWorkspace
end GuvFX
