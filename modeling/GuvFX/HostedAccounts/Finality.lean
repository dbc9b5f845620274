/-
# Finality of a removal

Removing an account is meant to be final: the account is not active, confirmed or authorized again, and
its workspace is not bound to a node.  The rows are shared by the removals, the confirmations, the
authorizations, the requests and declarations of an identity, the allocations with the passes that begin
them, and the clean-ups; other writers, the arming among them, change them everywhere else.
-/
import GuvFX.HostedAccounts.Capacity
import GuvFX.HostedAccounts.ServerEnvironment

namespace GuvFX
namespace HostedAccounts
namespace Finality

open Runs

/-! ### The operations together -/

/-- What is fixed. -/
structure Setting where
  hosting : Allocation.Setting
  identity : ServerEnvironment.Setting

/-- A pass of the provisioning: its last allocation, and the workspaces that are left. -/
structure Pass where
  current : Option ℕ := none
  left : List ℕ
  deriving DecidableEq, Repr

structure State where
  /-- The rows, and the allocations, removals and clean-ups under way. -/
  hosting : Allocation.State
  servers : Table BrokerServer
  locks : Locks ServerEnvironment.Resource := Locks.free
  /-- The requests and declarations under way. -/
  identities : ℕ → Option ServerEnvironment.Call := fun _ => none
  passes : ℕ → Option Pass := fun _ => none

namespace State

def store (s : State) : Store := s.hosting.estate.store

def setStore (s : State) (store : Store) : State :=
  { s with hosting := { s.hosting with estate := { s.hosting.estate with store := store } } }

/-- The rows as the requests and declarations see them. -/
def identity (s : State) : ServerEnvironment.State where
  store := s.store
  servers := s.servers
  locks := s.locks
  calls := s.identities

end State

def otherAccount (account old : TradingAccount) : TradingAccount :=
  { account with
    isActive := old.isActive
    disconnectedAt := old.disconnectedAt
    workspaceConfirmedAt := old.workspaceConfirmedAt }

def otherWorkspace (ws old : HostedMt5Workspace) : HostedMt5Workspace :=
  { ws with
    tradingAccount := old.tradingAccount
    executionAuthorizedAt := old.executionAuthorizedAt
    executionNode := old.executionNode }

/-- What can happen next. -/
inductive Action
  /-- A step of the allocations, the removals and the clean-ups. -/
  | hosting (a : Allocation.Action)
  /-- A step of the requests and the declarations. -/
  | identity (a : ServerEnvironment.Action)
  | confirm (admission : Option String) (user workspace : ℕ) (now : ℤ)
  | authorize (admission : Option String) (user workspace : ℕ) (allowPreReady : Bool) (now : ℤ)
  | pass (p : ℕ) (enabled : Bool)
  /-- The pass goes on to its next workspace. -/
  | goPass (p k : ℕ)
  | otherAccount (pk : ℕ) (account : TradingAccount)
  | otherWorkspace (pk : ℕ) (ws : HostedMt5Workspace)

/-- The workspaces that a pass takes up. -/
def runWorkspaceProvisioning (store : Store) : List ℕ :=
  (store.workspaces.filter fun _ ws => ws.canonicalState = .provisioning).map Prod.fst

def allocating (s : Allocation.State) (k : ℕ) : Bool :=
  (s.calls k).any fun call =>
    match call.phase with
    | .done _ => false
    | _ => true

def step (σ : Setting) (s : State) : Action → State
  | .hosting (.otherAccount ..) | .hosting (.otherWorkspace ..) => s
  | .hosting a => { s with hosting := Allocation.step σ.hosting s.hosting a }
  | .identity a =>
    let out := ServerEnvironment.step σ.identity s.identity a
    { s.setStore out.store with
      servers := out.servers
      locks := out.locks
      identities := out.calls }
  | .confirm admission user workspace now =>
    s.setStore (confirmBrokerAccount admission user workspace now s.store).1
  | .authorize admission user workspace allowPreReady now =>
    s.setStore (authorizeWorkspaceExecution admission user workspace allowPreReady now s.store).1
  | .pass p enabled =>
    match s.passes p with
    | some _ => s
    | none =>
      if enabled then
        let pass : Pass := { left := runWorkspaceProvisioning s.store }
        { s with passes := Function.update s.passes p (some pass) }
      else s
  | .goPass p k =>
    match s.passes p with
    | none => s
    | some pass =>
      if pass.current.any (allocating s.hosting) then s
      else
        match pass.left with
        | [] => { s with passes := Function.update s.passes p none }
        | workspace :: rest =>
          if (s.hosting.calls k).isSome then s
          else
            { s with
              hosting := Allocation.step σ.hosting s.hosting (.allocate k workspace)
              passes := Function.update s.passes p (some ⟨some k, rest⟩) }
  | .otherAccount pk account => s.setStore (s.store.updateAccount pk (otherAccount account))
  | .otherWorkspace pk ws => s.setStore (s.store.updateWorkspace pk (otherWorkspace ws))

/-- Before any call. -/
def start (estate : Estate) (servers : Table BrokerServer) : State where
  hosting := Allocation.start estate
  servers := servers

/-! ### The property -/

def accountIsRemoved (store : Store) (pk : ℕ) : Bool :=
  (store.accounts.get pk).any fun account => account.disconnectedAt.isSome

/-- A removed account stays removed, and is not activated or confirmed. -/
structure AccountFinal (account account' : TradingAccount) : Prop where
  removed : account'.disconnectedAt.isSome = true
  inactive : account'.isActive = true → account.isActive = true
  confirmed : account'.workspaceConfirmedAt = account.workspaceConfirmedAt

/-- The workspace of a removed account is not authorized, and is bound to no node to which it is not bound
already. -/
structure WorkspaceFinal (ws ws' : HostedMt5Workspace) : Prop where
  account : ws'.tradingAccount = ws.tradingAccount
  authorized : ws'.executionAuthorizedAt = ws.executionAuthorizedAt
  node : ws'.executionNode = none ∨ ws'.executionNode = ws.executionNode

/-- The removals that are found in the first rows are final in the second ones. -/
structure Final (store store' : Store) : Prop where
  account : ∀ pk account, store.accounts.get pk = some account → account.disconnectedAt.isSome = true →
    ∃ account', store'.accounts.get pk = some account' ∧ AccountFinal account account'
  workspace : ∀ pk ws, store.workspaces.get pk = some ws →
    accountIsRemoved store ws.tradingAccount = true →
    ∃ ws', store'.workspaces.get pk = some ws' ∧ WorkspaceFinal ws ws'

/-- At every point of a run the removals made so far are final for the rest of it. -/
def RemovalsFinal (σ : Setting) (s : State) (as : List Action) : Prop :=
  ∀ bs cs, bs ++ cs <+: as → Final (run (step σ) s bs).store (run (step σ) s (bs ++ cs)).store

/-- What the step writes is not a confirmation, an authorization or a binding of a removed account. -/
def sparesRemoved (σ : Setting) (s : State) : Action → Bool
  | .confirm admission user workspace _ =>
    (confirms admission user workspace s.store).all fun pk => !accountIsRemoved s.store pk
  | .authorize admission user workspace allowPreReady _ =>
    !authorizes admission user workspace allowPreReady s.store ||
      (s.store.workspaces.get workspace).all fun ws => !accountIsRemoved s.store ws.tradingAccount
  | .hosting (.go k gates) =>
    match s.hosting.calls k with
    | some ⟨.allocate workspace, .binding account node _ _, _⟩ =>
      (Allocation.forbiddenNodes σ.hosting gates s.store account).contains node ||
        (s.store.workspaces.get workspace).all fun ws =>
          ws.executionNode = some node || !accountIsRemoved s.store ws.tradingAccount
    | _ => true
  | _ => true

/-! ### Writes that keep a removal -/

lemma AccountFinal.refl {account : TradingAccount} (h : account.disconnectedAt.isSome = true) :
    AccountFinal account account := ⟨h, id, rfl⟩

lemma WorkspaceFinal.refl (ws : HostedMt5Workspace) : WorkspaceFinal ws ws := ⟨rfl, rfl, .inr rfl⟩

lemma WorkspaceFinal.trans {ws ws₁ ws' : HostedMt5Workspace} (h₁ : WorkspaceFinal ws ws₁)
    (h₂ : WorkspaceFinal ws₁ ws') : WorkspaceFinal ws ws' := by
  refine ⟨h₂.account.trans h₁.account, h₂.authorized.trans h₁.authorized, ?_⟩
  rcases h₂.node with hnone | hsame
  · exact .inl hnone
  · rw [hsame]
    exact h₁.node

section

variable {store store' : Store} {pk : ℕ}

lemma accountIsRemoved_eq_true : accountIsRemoved store pk = true ↔
    ∃ account, store.accounts.get pk = some account ∧ account.disconnectedAt.isSome = true := by
  simp [accountIsRemoved, Option.any_eq_true]

lemma Final.refl (store : Store) : Final store store :=
  ⟨fun _ account h hremoved => ⟨account, h, .refl hremoved⟩, fun _ ws h _ => ⟨ws, h, .refl ws⟩⟩

lemma Final.trans {store₁ : Store} (h₁ : Final store store₁) (h₂ : Final store₁ store') :
    Final store store' := by
  constructor
  · intro pk account haccount hremoved
    obtain ⟨account₁, haccount₁, hfinal₁⟩ := h₁.account pk account haccount hremoved
    obtain ⟨account', haccount', hfinal'⟩ := h₂.account pk account₁ haccount₁ hfinal₁.removed
    exact ⟨account', haccount', hfinal'.removed, hfinal₁.inactive ∘ hfinal'.inactive,
      hfinal'.confirmed.trans hfinal₁.confirmed⟩
  · intro pk ws hws hremoved
    obtain ⟨ws₁, hws₁, hfinal₁⟩ := h₁.workspace pk ws hws hremoved
    -- the account is still a removed one
    obtain ⟨account, haccount, hdisconnected⟩ := accountIsRemoved_eq_true.mp hremoved
    obtain ⟨account₁, haccount₁, haccountFinal⟩ := h₁.account _ account haccount hdisconnected
    have hremoved₁ : accountIsRemoved store₁ ws₁.tradingAccount = true :=
      accountIsRemoved_eq_true.mpr ⟨account₁, hfinal₁.account ▸ haccount₁, haccountFinal.removed⟩
    obtain ⟨ws', hws', hfinal'⟩ := h₂.workspace pk ws₁ hws₁ hremoved₁
    exact ⟨ws', hws', hfinal₁.trans hfinal'⟩

lemma final_updateAccount {f : TradingAccount → TradingAccount}
    (hf : ∀ account, store.accounts.get pk = some account → account.disconnectedAt.isSome = true →
      AccountFinal account (f account)) : Final store (store.updateAccount pk f) := by
  refine ⟨fun j account haccount hremoved => ?_, fun _ ws hws _ => ⟨ws, hws, .refl ws⟩⟩
  rw [Store.accounts_updateAccount, Table.get_modify]
  split_ifs with hj
  · subst hj
    exact ⟨f account, by rw [haccount]; rfl, hf account haccount hremoved⟩
  · exact ⟨account, haccount, .refl hremoved⟩

lemma final_updateWorkspace {f : HostedMt5Workspace → HostedMt5Workspace}
    (hf : ∀ ws, store.workspaces.get pk = some ws → accountIsRemoved store ws.tradingAccount = true →
      WorkspaceFinal ws (f ws)) : Final store (store.updateWorkspace pk f) := by
  refine ⟨fun _ account haccount hremoved => ⟨account, haccount, .refl hremoved⟩,
    fun j ws hws hremoved => ?_⟩
  rw [Store.workspaces_updateWorkspace, Table.get_modify]
  split_ifs with hj
  · subst hj
    exact ⟨f ws, by rw [hws]; rfl, hf ws hws hremoved⟩
  · exact ⟨ws, hws, .refl ws⟩

lemma final_insert (account : TradingAccount) (ws : HostedMt5Workspace) :
    Final store ⟨store.accounts.insert store.accounts.fresh account,
      store.workspaces.insert store.workspaces.fresh ws⟩ := by
  constructor
  · intro pk old hold hremoved
    exact ⟨old, Table.get_insert_of_get (Table.fresh_not_mem _) hold, .refl hremoved⟩
  · intro pk old hold _
    exact ⟨old, Table.get_insert_of_get (Table.fresh_not_mem _) hold, .refl old⟩

end

/-! ### The operations -/

section

variable {store : Store}

lemma final_confirm {admission : Option String} {user workspace : ℕ} {now : ℤ}
    (h : (confirms admission user workspace store).all (fun pk => !accountIsRemoved store pk) = true) :
    Final store (confirmBrokerAccount admission user workspace now store).1 := by
  rw [confirmBrokerAccount_store]
  match hconfirms : confirms admission user workspace store with
  | none => exact .refl store
  | some pk =>
    refine final_updateAccount fun account haccount hremoved => ?_
    -- the account would have been removed
    have hfound := accountIsRemoved_eq_true.mpr ⟨account, haccount, hremoved⟩
    simp [hconfirms, hfound] at h

lemma final_authorize {admission : Option String} {user workspace : ℕ} {allowPreReady : Bool} {now : ℤ}
    (h : (!authorizes admission user workspace allowPreReady store ||
      (store.workspaces.get workspace).all fun ws => !accountIsRemoved store ws.tradingAccount) = true) :
    Final store (authorizeWorkspaceExecution admission user workspace allowPreReady now store).1 := by
  rw [authorizeWorkspaceExecution_store]
  split_ifs with hauthorizes
  · refine final_updateWorkspace fun ws hws hremoved => ?_
    simp [hauthorizes, hws, hremoved] at h
  · exact .refl store

lemma final_bindNode {workspace account node : ℕ}
    (h : (store.workspaces.get workspace).all (fun ws =>
      ws.executionNode = some node || !accountIsRemoved store ws.tradingAccount) = true) :
    Final store (Allocation.bindNode workspace account node store) := by
  have hws : Final store
      (store.updateWorkspace workspace (Allocation.HostedMt5Workspace.bindNode node)) := by
    refine final_updateWorkspace fun ws hws hremoved => ?_
    simp only [hws, Option.all_some, hremoved, Bool.not_true, Bool.or_false, decide_eq_true_eq] at h
    exact ⟨rfl, rfl, .inr h.symm⟩
  exact hws.trans (final_updateAccount fun _ _ hremoved => ⟨hremoved, id, rfl⟩)

lemma final_removeTransaction (pk : ℕ) (copy : Option (ℕ × HostedMt5Workspace)) (now : ℤ)
    (estate : Estate) : Final estate.store (removeTransaction pk copy now estate).1.store := by
  unfold removeTransaction
  split
  · exact .refl _
  split_ifs
  · exact .refl _
  have htombstone :
      Final estate.store (estate.store.updateAccount pk (TradingAccount.tombstone now)) :=
    final_updateAccount fun _ _ _ => ⟨rfl, nofun, rfl⟩
  split
  · exact htombstone
  · exact htombstone.trans (final_updateWorkspace fun _ _ _ => ⟨rfl, rfl, .inr rfl⟩)

lemma final_reclaimNodes (workspace : ℕ) : Final store (reclaimNodes workspace store) := by
  refine final_updateWorkspace fun ws _ _ => ?_
  split_ifs
  · exact ⟨rfl, rfl, .inl rfl⟩
  · exact .refl ws

lemma final_checkCleanup (gates : CleanupGates) (attempt : Attempt) :
    Final store (checkCleanup gates attempt store).1 := by
  have hwrite : ∀ state reason next, Final store (store.updateWorkspace attempt.workspace
      (HostedMt5Workspace.writeCleanup state reason next)) := fun _ _ _ =>
    final_updateWorkspace fun _ _ _ => ⟨rfl, rfl, .inr rfl⟩
  simp only [checkCleanup]
  split_ifs
  · exact hwrite ..
  · exact hwrite ..
  · exact hwrite ..
  · exact hwrite ..
  · exact final_updateWorkspace fun _ _ _ => ⟨rfl, rfl, .inr rfl⟩
  · exact .refl store

lemma final_attemptStep (gates : CleanupGates) (attempt : Attempt) (estate : Estate) :
    Final estate.store (attemptStep gates attempt estate).1.store := by
  simp only [attemptStep]
  split
  · exact final_checkCleanup ..
  · exact .refl _
  · exact .refl _
  · split_ifs
    · exact final_updateWorkspace fun _ _ _ => ⟨rfl, rfl, .inr rfl⟩
    · exact final_updateWorkspace fun _ _ _ => ⟨rfl, rfl, .inr rfl⟩
  · exact final_reclaimNodes _
  · exact .refl _
  · exact .refl _

end

/-! ### Every step -/

lemma final_cycleStep (gates : CleanupGates) (s : Allocation.State) :
    Final s.estate.store (Allocation.cycleStep gates s).estate.store := by
  unfold Allocation.cycleStep
  split
  · exact .refl _
  · exact .refl _
  · split
    · exact .refl _
    · exact final_attemptStep ..

lemma final_callStep {σ : Allocation.Setting} {k : ℕ} {s : Allocation.State} {call : Allocation.Call}
    {gates : Allocation.Gates}
    (h : ∀ workspace account node hostname needsAdvance, call.kind = .allocate workspace →
      call.phase = .binding account node hostname needsAdvance →
      (Allocation.forbiddenNodes σ gates s.estate.store account).contains node = false →
      (s.estate.store.workspaces.get workspace).all (fun ws =>
        ws.executionNode = some node || !accountIsRemoved s.estate.store ws.tradingAccount) = true) :
    Final s.estate.store (Allocation.callStep σ k s call gates).1.estate.store := by
  obtain ⟨kind, phase, bound⟩ := call
  cases kind with
  | allocate workspace =>
    cases phase with
    | opening =>
      simp only [Allocation.callStep, Allocation.estate_openAllocation]
      exact .refl _
    | binding account node hostname needsAdvance =>
      simp only [Allocation.callStep, Allocation.commitAllocation]
      split_ifs with hforbidden
      · exact .refl _
      · exact final_bindNode (h workspace account node hostname needsAdvance rfl rfl
          (Bool.eq_false_iff.mpr hforbidden))
    | preparing reason hostname =>
      simp only [Allocation.callStep]
      split <;> exact .refl _
    | advancing reason hostname =>
      simp only [Allocation.callStep]
      split_ifs
      · exact final_updateWorkspace fun _ _ _ => ⟨rfl, rfl, .inr rfl⟩
      · exact .refl _
    | removing workspace | done result => exact .refl _
  | remove pk account =>
    cases phase with
    | opening =>
      simp only [Allocation.callStep]
      split_ifs <;> exact .refl _
    | removing workspace => exact final_removeTransaction ..
    | binding | preparing | advancing | done => exact .refl _

/-- A request creates rows, and a declaration writes an identity. -/
lemma final_saveCall (k : ℕ) (s : ServerEnvironment.State) (gates : ServerEnvironment.Gates)
    (kind : ServerEnvironment.Kind) (isDemo : Bool) (look : Option ServerEnvironment.LookUp) :
    Final s.store (ServerEnvironment.saveCall k s gates kind isDemo look).1.store := by
  simp only [ServerEnvironment.saveCall]
  split
  · exact .refl _
  split
  · split_ifs
    · exact .refl _
    · exact final_insert _ _
  · split
    · exact .refl _
    · split_ifs
      · exact .refl _
      · exact final_updateAccount fun _ _ hremoved => ⟨hremoved, id, rfl⟩

lemma store_openCall (σ : ServerEnvironment.Setting) (k : ℕ) (s : ServerEnvironment.State)
    (gates : ServerEnvironment.Gates) (kind : ServerEnvironment.Kind) :
    (ServerEnvironment.openCall σ k s gates kind).1.store = s.store := by
  cases kind with
  | request user login server brokerName isDemo =>
    simp only [ServerEnvironment.openCall]
    split
    · rfl
    · split_ifs
      · rfl
      · rfl
      · rfl
      · rfl
      · split <;> rfl
  | bind user workspace login server =>
    simp only [ServerEnvironment.openCall]
    split_ifs
    · rfl
    · rfl
    · rfl
    · split
      · rfl
      · split <;> rfl

lemma final_identityStep (σ : ServerEnvironment.Setting) (s : ServerEnvironment.State)
    (a : ServerEnvironment.Action) : Final s.store (ServerEnvironment.step σ s a).store := by
  cases a with
  | begin k kind =>
    simp only [ServerEnvironment.step]
    split <;> exact .refl _
  | go k gates =>
    simp only [ServerEnvironment.step]
    split
    · exact .refl _
    next call _ =>
      obtain ⟨kind, phase⟩ := call
      cases phase with
      | opening =>
        simp only [ServerEnvironment.callStep, store_openCall]
        exact .refl _
      | saving isDemo look => exact final_saveCall ..
      | looking | done => exact .refl _
  | die k => exact .refl _

lemma final_hostingStep {σ : Setting} {s : State} {a : Allocation.Action}
    (h : sparesRemoved σ s (.hosting a) = true) :
    Final s.store (step σ s (.hosting a)).store := by
  cases a with
  | allocate k workspace =>
    simp only [step, Allocation.step, State.store]
    split <;> exact .refl _
  | remove k pk =>
    simp only [step, Allocation.step, State.store]
    split <;> exact .refl _
  | go k gates =>
    simp only [step, Allocation.step, State.store]
    split
    · exact .refl _
    next call hcall =>
      refine final_callStep fun workspace account node hostname needsAdvance hkind hphase hallowed => ?_
      obtain ⟨kind, phase, bound⟩ := call
      dsimp only at hkind hphase
      subst hkind hphase
      simpa only [sparesRemoved, hcall, hallowed, State.store, Bool.false_or] using h
  | cycle now =>
    simp only [step, Allocation.step, State.store]
    split <;> exact .refl _
  | die | dieCycle | otherAccount | otherWorkspace => exact .refl _
  | goCycle gates => exact final_cycleStep gates s.hosting
  | reclaim workspace => exact final_reclaimNodes workspace

lemma final_step {σ : Setting} {s : State} {a : Action} (h : sparesRemoved σ s a = true) :
    Final s.store (step σ s a).store := by
  cases a with
  | hosting a => exact final_hostingStep h
  | identity a => exact final_identityStep σ.identity s.identity a
  | confirm admission user workspace now => exact final_confirm h
  | authorize admission user workspace allowPreReady now => exact final_authorize h
  | pass p enabled =>
    simp only [step]
    split
    · exact .refl _
    · split_ifs <;> exact .refl _
  | goPass p k =>
    simp only [step]
    split
    · exact .refl _
    split
    · exact .refl _
    split
    · exact .refl _
    split
    · exact .refl _
    · simp only [State.store, Allocation.step]
      split <;> exact .refl _
  | otherAccount pk account =>
    exact final_updateAccount fun _ _ hremoved => ⟨hremoved, id, rfl⟩
  | otherWorkspace pk ws => exact final_updateWorkspace fun _ _ _ => ⟨rfl, rfl, .inr rfl⟩

/-! ### Every run -/

instance : Std.Refl fun s s' : State => Final s.store s'.store := ⟨fun s => Final.refl s.store⟩

instance : IsTrans State fun s s' => Final s.store s'.store := ⟨fun _ _ _ => Final.trans⟩

/-- As long as nothing is confirmed, authorized or bound that has been removed, a removal is final. -/
theorem removalFinal {σ : Setting} {s : State} {as : List Action}
    (h : StepsMeet (step σ) (fun s a => sparesRemoved σ s a = true) s as) : RemovalsFinal σ s as := by
  rintro bs cs ⟨ds, rfl⟩
  obtain ⟨hpre, -⟩ := stepsMeet_append.mp h
  obtain ⟨-, hcs⟩ := stepsMeet_append.mp hpre
  rw [run_append]
  exact run_rel_of_meets (P := fun _ => True) (R := fun s s' : State => Final s.store s'.store)
    (fun _ _ _ _ => trivial) (fun _ _ _ => final_step) trivial hcs

/-! ### Runs in which a removal is undone -/

section

variable {store store' : Store} {pk : ℕ}

lemma Final.confirmed (h : Final store store') (hremoved : accountIsRemoved store pk = true) :
    (store'.accounts.get pk).map TradingAccount.workspaceConfirmedAt =
      (store.accounts.get pk).map TradingAccount.workspaceConfirmedAt := by
  obtain ⟨account, haccount, hdisconnected⟩ := accountIsRemoved_eq_true.mp hremoved
  obtain ⟨account', haccount', hfinal⟩ := h.account pk account haccount hdisconnected
  simp [haccount, haccount', hfinal.confirmed]

lemma Final.unbound (h : Final store store')
    (hremoved : (store.workspaces.get pk).any (fun ws => accountIsRemoved store ws.tradingAccount) = true) :
    (store'.workspaces.get pk).map HostedMt5Workspace.executionAuthorizedAt =
        (store.workspaces.get pk).map HostedMt5Workspace.executionAuthorizedAt ∧
      ((store'.workspaces.get pk).bind HostedMt5Workspace.executionNode = none ∨
        (store'.workspaces.get pk).bind HostedMt5Workspace.executionNode =
          (store.workspaces.get pk).bind HostedMt5Workspace.executionNode) := by
  match hws : store.workspaces.get pk with
  | none => simp [hws] at hremoved
  | some ws =>
    rw [hws] at hremoved
    obtain ⟨ws', hws', hfinal⟩ := h.workspace pk ws hws hremoved
    simpa [hws', hfinal.authorized] using hfinal.node

end

def oneNode : Setting where
  hosting := Allocation.oneNode
  identity :=
    { casefold := id
      upper := id
      catalogue := [] }

/-- Three accounts of one user: the first is connected, the second is confirmed as well, and the third
waits for a node. -/
def threeAccounts : State :=
  start
    { store :=
        { accounts := ((Table.empty.insert 2 { user := 7 }).insert 3
            { user := 7, isActive := true, workspaceConfirmedAt := some 10 }).insert 4 { user := 7 }
          workspaces := ((Table.empty.insert 2
              { tradingAccount := 2, canonicalState := .connected, projAccountMatch := some true }).insert 3
              { tradingAccount := 3, canonicalState := .executionReady, projConnected := some true,
                projAccountMatch := some true }).insert 4 { tradingAccount := 4 } }
      endpoints := Table.empty } Table.empty

/-- Account `pk` is removed. -/
def remove (pk : ℕ) : List Action :=
  [.hosting (.remove 0 pk), .hosting (.go 0 { now := 100 }), .hosting (.go 0 { now := 100 })]

/-- The workspace that waits for a node is allocated by a pass. -/
def allocateThird : List Action :=
  [.pass 0 true, .goPass 0 1, .hosting (.go 1 {}), .hosting (.go 1 {})]

/-- After its removal the first account is confirmed, the second is authorized, and the workspace of the
third is bound to a node. -/
theorem removal_undone :
    ¬ RemovalsFinal oneNode threeAccounts (remove 2 ++ [.confirm none 7 2 200]) ∧
    ¬ RemovalsFinal oneNode threeAccounts (remove 3 ++ [.authorize none 7 3 false 200]) ∧
    ¬ RemovalsFinal oneNode threeAccounts (remove 4 ++ allocateThird) := by
  refine ⟨fun h => ?_, fun h => ?_, fun h => ?_⟩
  · have hsame := (h (remove 2) _ (List.prefix_refl _)).confirmed
      (show accountIsRemoved _ 2 = true by decide +kernel)
    exact absurd hsame (by decide +kernel)
  · have hsame := (h (remove 3) _ (List.prefix_refl _)).unbound
      (show (Table.get _ 3).any _ = true by decide +kernel)
    exact absurd hsame.1 (by decide +kernel)
  · have hsame := (h (remove 4) _ (List.prefix_refl _)).unbound
      (show (Table.get _ 4).any _ = true by decide +kernel)
    exact absurd hsame.2 (by decide +kernel)

/-- The first account is confirmed and then removed, while the third is allocated. -/
def confirmThenRemove : List Action := .confirm none 7 2 50 :: allocateThird ++ remove 2

theorem removalFinal_confirmThenRemove :
    RemovalsFinal oneNode threeAccounts confirmThenRemove := by
  refine removalFinal ?_
  decide +kernel

end Finality
end HostedAccounts
end GuvFX
