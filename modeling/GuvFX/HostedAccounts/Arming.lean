/-
# Arming and disarming a hosted workspace

Arming proves a list of preconditions and then sets a flag from its copy of the workspace; disarming
clears the flag, also from a copy, and leaves a mark that keeps the automatic pass away.  A revocation
and a removal disarm as well.  With a copy from before the disarm, the automatic pass arms it again.

The calls on one workspace take their steps in any order, and other writers may change everything but
the two flags.
-/
import GuvFX.HostedAccounts.Records
import GuvFX.Lib.Runs

namespace GuvFX
namespace HostedAccounts
namespace Arming

open Runs

/-! ### Preconditions -/

/-- What the preconditions read beyond the two rows, at the moment they are evaluated. -/
structure Gates where
  hostedFlags : Bool
  liveExecutionEnabled : Bool
  liveExecutionAuthorized : Bool
  executionPermittedUnderPosture : Bool
  servers : Table BrokerServer
  /-- Why the user is not admitted to hosted workspaces. -/
  admission : Option String
  openPositions : ℕ
  now : ℤ

structure ArmResult where
  ok : Bool
  reasonCode : String
  deriving DecidableEq, Repr

/-- Everything that must hold to arm, apart from the flag itself. -/
def armPreconditions (gates : Gates) (pk : ℕ) (account : TradingAccount)
    (workspace : Option HostedMt5Workspace) : ArmResult :=
  if !gates.hostedFlags then ⟨false, "workspace_execution_feature_disabled"⟩
  else if account.readinessProvider ≠ persistentWorkspace then ⟨false, "workspace_subsystem_disabled"⟩
  else if !account.isActive then ⟨false, "broker_account_inactive"⟩
  else if account.disconnectedAt.isSome then ⟨false, "broker_account_disconnected"⟩
  else if !isDemoEnvironment gates.servers account
      && !(gates.liveExecutionEnabled && gates.liveExecutionAuthorized) then
    ⟨false, "real_account_not_enabled"⟩
  else match workspace with
  | none => ⟨false, "workspace_missing"⟩
  | some ws =>
    if ws.tradingAccount ≠ pk then ⟨false, "workspace_owner_mismatch"⟩
    else if !gates.executionPermittedUnderPosture then ⟨false, "supervised_single_tenant_boundary"⟩
    else if account.terminalNode.isNone then ⟨false, "workspace_route_missing"⟩
    else if ws.executionNode.isNone then ⟨false, "workspace_execution_node_unbound"⟩
    else if ws.executionNode ≠ account.terminalNode then ⟨false, "workspace_execution_node_mismatch"⟩
    else if ws.projConnected ≠ some true then ⟨false, "workspace_not_connected"⟩
    else if ws.projAccountMatch ≠ some true then ⟨false, "active_account_mismatch"⟩
    else if ws.projTradeAllowed ≠ some true || !ws.canonicalExecutionReady then
      ⟨false, "workspace_not_execution_ready"⟩
    else if !observationFresh ws gates.now then ⟨false, "workspace_observation_stale"⟩
    else if ws.executionAuthorizedAt.isNone then ⟨false, "workspace_execution_not_authorized"⟩
    else ⟨true, "armed"⟩

/-! ### The two writes -/

def armFrom (copy stored : HostedMt5Workspace) : HostedMt5Workspace :=
  { stored with
    executionEnabled := if copy.executionEnabled then stored.executionEnabled else true
    autoArmSuppressed := if copy.autoArmSuppressed then false else stored.autoArmSuppressed }

def disarmFrom (copy stored : HostedMt5Workspace) : HostedMt5Workspace :=
  { stored with
    executionEnabled := if copy.executionEnabled then false else stored.executionEnabled
    autoArmSuppressed := if copy.autoArmSuppressed then stored.autoArmSuppressed else true }

/-- Whether the automatic pass takes a workspace up. -/
def autoArmCandidate (ws : HostedMt5Workspace) : Bool :=
  ws.canonicalState = .executionReady && !ws.executionEnabled && !ws.autoArmSuppressed
    && ws.executionAuthorizedAt.isSome

structure LiveExecutionAuthorization where
  isActive : Bool
  revokedAt : Option ℤ := none
  revokedBy : Option ℕ := none
  revocationReason : String := ""
  deriving DecidableEq, Repr

def LiveExecutionAuthorization.revoke (user : ℕ) (now : ℤ) (authz : LiveExecutionAuthorization) :
    LiveExecutionAuthorization :=
  if authz.isActive && authz.revokedAt.isNone then
    { isActive := false
      revokedAt := some now
      revokedBy := some user
      revocationReason := "disable_live" }
  else authz

/-! ### Calls -/

/-- The operations on a workspace. -/
inductive Kind
  /-- An explicit arm, by the operator or by the customer. -/
  | arm
  /-- The arm of the automatic pass, on the copies that its query has fetched. -/
  | autoArm
  | disarm
  | revoke (user : ℕ)
  | remove
  deriving DecidableEq, Repr

inductive Phase
  | opening
  /-- About to write from a copy of the workspace. -/
  | writing (workspace : HostedMt5Workspace)
  | done (result : ArmResult)
  deriving DecidableEq, Repr

structure Call where
  kind : Kind
  account : TradingAccount
  /-- The copy of the workspace that came with the account. -/
  workspace : Option HostedMt5Workspace
  phase : Phase
  /-- How many disarms had completed when the call began; the program does not keep it. -/
  began : ℕ
  deriving DecidableEq, Repr

def Call.arms (call : Call) : Bool := call.kind = .arm || call.kind = .autoArm

/-- One account and its workspace, the calls under way, and what has been disarmed. -/
structure State where
  account : TradingAccount
  workspace : HostedMt5Workspace
  authorizations : List LiveExecutionAuthorization := []
  calls : ℕ → Option Call := fun _ => none
  disarms : ℕ := 0
  /-- Whether an explicit arm that began after the last disarm has been made; so it is at first. -/
  rearmed : Bool := true

def setCall (calls : ℕ → Option Call) (k : ℕ) (call : Option Call) : ℕ → Option Call :=
  fun k' => if k' = k then call else calls k'

def State.disarmed (s : State) (copy : HostedMt5Workspace) : State :=
  { s with
    workspace := disarmFrom copy s.workspace
    disarms := s.disarms + 1
    rearmed := false }

def callStep (pk : ℕ) (s : State) (call : Call) (gates : Gates) : State × Phase :=
  match call.kind, call.phase with
  | .arm, .opening | .autoArm, .opening =>
    let ws := call.workspace.getD s.workspace
    let pre := armPreconditions gates pk call.account (some ws)
    if pre.ok then (s, .writing ws) else (s, .done pre)
  | .arm, .writing copy =>
    ({ s with
      workspace := armFrom copy s.workspace
      rearmed := s.rearmed || call.began = s.disarms }, .done ⟨true, "armed"⟩)
  | .autoArm, .writing copy =>
    ({ s with workspace := armFrom copy s.workspace }, .done ⟨true, "armed"⟩)
  | .disarm, .opening => (s, .writing (call.workspace.getD s.workspace))
  | .disarm, .writing copy => (s.disarmed copy, .done ⟨true, "disarmed"⟩)
  | .revoke user, .opening =>
    match gates.admission with
    | some reason => (s, .done ⟨false, reason⟩)
    | none =>
      -- under the lock of the workspace
      if s.account.user ≠ user then (s, .done ⟨false, "not_owner"⟩)
      else
        let authorizations := s.authorizations.map
          (LiveExecutionAuthorization.revoke user gates.now)
        ({ s with authorizations := authorizations }, .writing s.workspace)
  | .revoke _, .writing copy => (s.disarmed copy, .done ⟨true, "live_execution_revoked"⟩)
  | .remove, .opening =>
    if call.account.disconnectedAt.isSome then (s, .done ⟨true, "already"⟩)
    else if gates.openPositions ≠ 0 then (s, .done ⟨false, "open_trades"⟩)
    else (s, .writing (call.workspace.getD s.workspace))
  | .remove, .writing copy =>
    -- one transaction, under the lock of the account
    if s.account.disconnectedAt.isSome then (s, .done ⟨true, "already"⟩)
    else
      let account := { s.account with
        isActive := false
        disconnectedAt := some gates.now }
      ({ s.disarmed copy with account := account }, .done ⟨true, "removed"⟩)
  | _, .done result => (s, .done result)

/-- What can happen next. -/
inductive Action
  /-- A call begins, with the account as it is stored; the automatic pass begins one for a candidate. -/
  | begin (k : ℕ) (kind : Kind) (enabled : Bool)
  /-- The next step of a call. -/
  | go (k : ℕ) (gates : Gates)
  | die (k : ℕ)
  /-- Other writers change the rows, though not the two flags. -/
  | other (account : TradingAccount) (workspace : HostedMt5Workspace)

def step (pk : ℕ) (s : State) (a : Action) : State :=
  match a with
  | .begin k kind enabled =>
    match s.calls k with
    | some _ => s
    | none =>
      if kind = .autoArm then
        if enabled && autoArmCandidate s.workspace then
          { s with
            calls := setCall s.calls k (some ⟨kind, s.account, some s.workspace, .opening, s.disarms⟩) }
        else s
      else { s with calls := setCall s.calls k (some ⟨kind, s.account, none, .opening, s.disarms⟩) }
  | .go k gates =>
    match s.calls k with
    | none => s
    | some call =>
      let out := callStep pk s call gates
      { out.1 with calls := setCall s.calls k (some { call with phase := out.2 }) }
  | .die k => { s with calls := setCall s.calls k none }
  | .other account workspace =>
    let ws := { workspace with
      executionEnabled := s.workspace.executionEnabled
      autoArmSuppressed := s.workspace.autoArmSuppressed }
    { s with
      account := account
      workspace := ws }

/-- Before any call. -/
def start (account : TradingAccount) (workspace : HostedMt5Workspace) : State where
  account := account
  workspace := workspace

/-! ### Disarm wins -/

/-- After a disarm the workspace is not armed, until an explicit arm that began after it is made. -/
def DisarmWins (s : State) : Prop := s.rearmed = false → s.workspace.executionEnabled = false

/-- A write is made from a copy that is still current.  After a disarm that no explicit arm has followed
yet, an arm is made by a call that began after the disarm, or finds nothing to change in its copy; and the
copy of a disarm has the flags that are to be changed as they are stored. -/
def Current (s : State) (a : Action) : Prop :=
  ∀ k gates call copy, a = .go k gates → s.calls k = some call → call.phase = .writing copy →
    if call.arms then s.rearmed = false → call.began = s.disarms ∨
      (copy.executionEnabled = true ∧ copy.autoArmSuppressed = false)
    else (s.workspace.executionEnabled = true → copy.executionEnabled = true) ∧
      (s.workspace.autoArmSuppressed = false → copy.autoArmSuppressed = false)

/-- What is kept of the flags and of the calls of the automatic pass. -/
structure Kept (s : State) : Prop where
  disarmed : s.rearmed = false →
    s.workspace.executionEnabled = false ∧ s.workspace.autoArmSuppressed = true
  began : ∀ k call, s.calls k = some call → call.began ≤ s.disarms
  /-- The pass takes nothing up that is disarmed. -/
  auto : ∀ k call, s.calls k = some call → call.kind = .autoArm → call.began = s.disarms →
    s.rearmed = true

variable {pk : ℕ} {s : State} {call : Call} {gates : Gates} {a : Action}

lemma of_setCall {calls : ℕ → Option Call} {k k' : ℕ} {new : Option Call} {call' : Call}
    (h : setCall calls k new k' = some call') : new = some call' ∨ calls k' = some call' := by
  simp only [setCall] at h
  split_ifs at h
  · exact .inl h
  · exact .inr h

inductive Moves (s : State) (call : Call) : State → Prop
  | quiet {s' : State} (hflags : s'.workspace = s.workspace) (hdisarms : s'.disarms = s.disarms)
      (hrearmed : s'.rearmed = s.rearmed) : Moves s call s'
  | arm {s' : State} {copy : HostedMt5Workspace} (hphase : call.phase = .writing copy)
      (hkind : call.arms = true) (hws : s'.workspace = armFrom copy s.workspace)
      (hdisarms : s'.disarms = s.disarms)
      (hrearmed : s'.rearmed = (s.rearmed || (call.kind = .arm && call.began = s.disarms))) :
      Moves s call s'
  | disarm {s' : State} {copy : HostedMt5Workspace} (hphase : call.phase = .writing copy)
      (hkind : call.arms = false) (hws : s'.workspace = disarmFrom copy s.workspace)
      (hdisarms : s'.disarms = s.disarms + 1) (hrearmed : s'.rearmed = false) : Moves s call s'

lemma moves_callStep (pk : ℕ) (s : State) (call : Call) (gates : Gates) :
    Moves s call (callStep pk s call gates).1 := by
  obtain ⟨kind, account, workspace, phase, began⟩ := call
  cases phase with
  | done result => cases kind <;> exact .quiet rfl rfl rfl
  | opening =>
    cases kind with
    | arm | autoArm | remove =>
      dsimp only [callStep]
      repeat' split
      all_goals exact .quiet rfl rfl rfl
    | disarm => exact .quiet rfl rfl rfl
    | revoke user =>
      dsimp only [callStep]
      repeat' split
      -- the authorizations alone may change
      all_goals exact .quiet rfl rfl rfl
  | writing copy =>
    cases kind with
    | arm => exact .arm rfl rfl rfl rfl (by simp [callStep])
    | autoArm => exact .arm rfl rfl rfl rfl (by simp [callStep])
    | disarm => exact .disarm rfl rfl rfl rfl rfl
    | revoke user => exact .disarm rfl rfl rfl rfl rfl
    | remove =>
      dsimp only [callStep]
      split
      · exact .quiet rfl rfl rfl
      · exact .disarm rfl rfl rfl rfl rfl

lemma disarmFrom_current {copy stored : HostedMt5Workspace}
    (h : (stored.executionEnabled = true → copy.executionEnabled = true) ∧
      (stored.autoArmSuppressed = false → copy.autoArmSuppressed = false)) :
    (disarmFrom copy stored).executionEnabled = false ∧
      (disarmFrom copy stored).autoArmSuppressed = true := by
  obtain ⟨henabled, hsuppressed⟩ := h
  constructor
  · show (if copy.executionEnabled then false else stored.executionEnabled) = false
    split_ifs with hcopy
    · rfl
    · by_contra h
      exact hcopy (henabled (by simpa using h))
  · show (if copy.autoArmSuppressed then stored.autoArmSuppressed else true) = true
    split_ifs with hcopy
    · by_contra h
      rw [hsuppressed (by simpa using h)] at hcopy
      cases hcopy
    · rfl

lemma Kept.go (pk : ℕ) (h : Kept s) {k : ℕ} (hcall : s.calls k = some call)
    (hcurrent : Current s (.go k gates)) :
    Kept { (callStep pk s call gates).1 with
      calls := setCall s.calls k (some { call with phase := (callStep pk s call gates).2 }) } := by
  -- the calls are the same ones, at another phase
  have hcalls : ∀ {k' call'}, setCall s.calls k
      (some { call with phase := (callStep pk s call gates).2 }) k' = some call' →
      ∃ j old, s.calls j = some old ∧ call'.kind = old.kind ∧ call'.began = old.began := by
    intro k' call' hk'
    rcases of_setCall hk' with hnew | hold
    · obtain rfl := Option.some.inj hnew
      exact ⟨k, call, hcall, rfl, rfl⟩
    · exact ⟨k', call', hold, rfl, rfl⟩
  have hmoves := moves_callStep pk s call gates
  generalize (callStep pk s call gates).1 = s' at hmoves
  cases hmoves with
  | quiet hflags hdisarms hrearmed =>
    refine ⟨fun hr => ?_, fun k' call' hk' => ?_, fun k' call' hk' hauto hbegan => ?_⟩
    · dsimp only at hr ⊢
      rw [hflags]
      exact h.disarmed (hrearmed.symm.trans hr)
    · obtain ⟨j, old, hj, -, hold⟩ := hcalls hk'
      dsimp only
      rw [hdisarms, hold]
      exact h.began j old hj
    · obtain ⟨j, old, hj, hkind, hold⟩ := hcalls hk'
      dsimp only at hbegan ⊢
      rw [hrearmed]
      exact h.auto j old hj (hkind ▸ hauto) (by rw [← hold, hbegan, hdisarms])
  | @arm copy hphase hkind hws hdisarms hrearmed =>
    have hcopy := hcurrent k gates call copy rfl hcall hphase
    rw [if_pos hkind] at hcopy
    have hmono : s.rearmed = true → s'.rearmed = true := by
      intro hr
      simp [hrearmed, hr]
    refine ⟨fun hr => ?_, fun k' call' hk' => ?_, fun k' call' hk' hauto hbegan => ?_⟩
    · dsimp only at hr ⊢
      have hr' : s.rearmed = false := by
        by_contra hready
        rw [hmono (by simpa using hready)] at hr
        cases hr
      rcases hcopy hr' with hbegan | ⟨henabled, hsuppressed⟩
      · -- a call that began after the disarm is an explicit one
        rcases (Bool.or_eq_true _ _).mp hkind with hk | hk
        · simp [hrearmed, of_decide_eq_true hk, hbegan] at hr
        · rw [h.auto k call hcall (of_decide_eq_true hk) hbegan] at hr'
          cases hr'
      · have := h.disarmed hr'
        simpa [hws, armFrom, henabled, hsuppressed] using this
    · obtain ⟨j, old, hj, -, hold⟩ := hcalls hk'
      dsimp only
      rw [hdisarms, hold]
      exact h.began j old hj
    · obtain ⟨j, old, hj, hkind', hold⟩ := hcalls hk'
      dsimp only at hbegan
      exact hmono (h.auto j old hj (hkind' ▸ hauto) (by rw [← hold, hbegan, hdisarms]))
  | @disarm copy hphase hkind hws hdisarms hrearmed =>
    have hcopy := hcurrent k gates call copy rfl hcall hphase
    rw [if_neg (by simp [hkind])] at hcopy
    refine ⟨fun _ => ?_, fun k' call' hk' => ?_, fun k' call' hk' _ hbegan => ?_⟩
    · dsimp only
      rw [hws]
      exact disarmFrom_current hcopy
    · obtain ⟨j, old, hj, -, hold⟩ := hcalls hk'
      have := h.began j old hj
      dsimp only
      omega
    · obtain ⟨j, old, hj, -, hold⟩ := hcalls hk'
      have := h.began j old hj
      dsimp only at hbegan
      omega

lemma kept_step (h : Kept s) (hcurrent : Current s a) : Kept (step pk s a) := by
  unfold step
  cases a with
  | begin k kind enabled =>
    dsimp only
    split
    · exact h
    split
    · split
      · next hcandidate =>
        have hready : s.rearmed = true := by
          by_contra hr
          have hsuppressed := (h.disarmed (by simpa using hr)).2
          simp [autoArmCandidate, hsuppressed] at hcandidate
        refine ⟨h.disarmed, fun k' call' hk' => ?_, fun k' call' hk' hauto hbegan => hready⟩
        rcases of_setCall hk' with hnew | hold
        · obtain rfl := Option.some.inj hnew
          exact le_refl _
        · exact h.began k' call' hold
      · exact h
    · next hkind =>
      refine ⟨h.disarmed, fun k' call' hk' => ?_, fun k' call' hk' hauto hbegan => ?_⟩
      · rcases of_setCall hk' with hnew | hold
        · obtain rfl := Option.some.inj hnew
          exact le_refl _
        · exact h.began k' call' hold
      · rcases of_setCall hk' with hnew | hold
        · obtain rfl := Option.some.inj hnew
          exact absurd hauto hkind
        · exact h.auto k' call' hold hauto hbegan
  | go k gates =>
    dsimp only
    split
    · exact h
    · next call hcall => exact h.go pk hcall hcurrent
  | die k =>
    refine ⟨h.disarmed, fun k' call' hk' => ?_, fun k' call' hk' hauto hbegan => ?_⟩
    · rcases of_setCall hk' with hnew | hold
      · cases hnew
      · exact h.began k' call' hold
    · rcases of_setCall hk' with hnew | hold
      · cases hnew
      · exact h.auto k' call' hold hauto hbegan
  | other account workspace => exact ⟨h.disarmed, h.began, h.auto⟩

/-- In every run whose writes are made from current copies, disarm wins. -/
theorem disarmWins (pk : ℕ) (account : TradingAccount) (workspace : HostedMt5Workspace)
    {as : List Action} (h : StepsMeet (step pk) Current (start account workspace) as) :
    DisarmWins (run (step pk) (start account workspace) as) := by
  have hstart : Kept (start account workspace) := by
    refine ⟨fun hr => ?_, fun k call hcall => ?_, fun k call hcall => ?_⟩
    · cases hr
    · cases hcall
    · cases hcall
  have hkept := run_invariant_of_meets (P := Kept) (fun s a hs hc => kept_step hs hc) hstart h
  exact fun hr => (hkept.disarmed hr).1

/-! ### A disarm that does not win -/

def readyWorkspace : HostedMt5Workspace where
  tradingAccount := 3
  canonicalState := .executionReady
  projConnected := some true
  projAccountMatch := some true
  projTradeAllowed := some true
  lastDecisionAt := some 990
  executionAuthorizedAt := some 900
  executionNode := some 1

def readyAccount : TradingAccount where
  user := 7
  isActive := true
  terminalNode := some 1

def openGates : Gates where
  hostedFlags := true
  liveExecutionEnabled := false
  liveExecutionAuthorized := false
  executionPermittedUnderPosture := true
  servers := .empty
  admission := none
  openPositions := 0
  now := 1000

/-- The automatic pass takes its candidate up and proves the preconditions, the workspace is disarmed, and
then the pass writes. -/
def overtakenDisarm : List Action :=
  [.begin 0 .autoArm true, .go 0 openGates, .begin 1 .disarm true, .go 1 openGates, .go 1 openGates,
    .go 0 openGates]

/-- The disarm has completed and the workspace is armed. -/
theorem disarm_overtaken : ¬ ∀ pk account workspace as,
    DisarmWins (run (step pk) (start account workspace) as) := by
  intro h
  have harmed : (run (step 3) (start readyAccount readyWorkspace) overtakenDisarm).workspace.executionEnabled
      = true := by decide
  rw [h 3 readyAccount readyWorkspace overtakenDisarm (by decide)] at harmed
  cases harmed

def disarmLast : List Action :=
  [.begin 0 .autoArm true, .go 0 openGates, .go 0 openGates, .begin 1 .disarm true, .go 1 openGates,
    .go 1 openGates]

lemma Current.begin {k : ℕ} {kind : Kind} {enabled : Bool} : Current s (.begin k kind enabled) := by
  intro k' gates call copy ha
  cases ha

lemma Current.opening {k : ℕ} (hcall : s.calls k = some call) (hphase : call.phase = .opening) :
    Current s (.go k gates) := by
  intro k' gates' call' copy ha hcall' hcopy
  cases ha
  obtain rfl := Option.some.inj (hcall.symm.trans hcall')
  rw [hphase] at hcopy
  cases hcopy

lemma Current.rearmed {k : ℕ} (hcall : s.calls k = some call) (hkind : call.arms = true)
    (hr : s.rearmed = true) : Current s (.go k gates) := by
  intro k' gates' call' copy ha hcall' _
  cases ha
  obtain rfl := Option.some.inj (hcall.symm.trans hcall')
  rw [if_pos hkind, hr]
  exact fun h => by cases h

lemma Current.disarm {k : ℕ} {copy : HostedMt5Workspace} (hcall : s.calls k = some call)
    (hkind : call.arms = false) (hphase : call.phase = .writing copy) (hcopy : copy = s.workspace) :
    Current s (.go k gates) := by
  intro k' gates' call' copy' ha hcall' hcopy'
  cases ha
  obtain rfl := Option.some.inj (hcall.symm.trans hcall')
  obtain rfl := Phase.writing.inj (hphase.symm.trans hcopy')
  rw [if_neg (by simp [hkind]), hcopy]
  exact ⟨id, id⟩

theorem disarmWins_last : DisarmWins (run (step 3) (start readyAccount readyWorkspace) disarmLast) := by
  refine disarmWins 3 readyAccount readyWorkspace ?_
  exact ⟨.begin, .opening rfl rfl, .rearmed rfl rfl rfl, .begin, .opening rfl rfl,
    .disarm rfl rfl rfl rfl, trivial⟩

end Arming
end HostedAccounts
end GuvFX
