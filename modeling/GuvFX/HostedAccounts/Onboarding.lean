/-
# Confirmation and authorization

The customer confirms that the account observed in the workspace is his, which activates it, and later
authorizes automated trading.  Each is one transaction that holds the rows of the workspace and of its
account.
-/
import GuvFX.HostedAccounts.Records

namespace GuvFX
namespace HostedAccounts

/-- The rows of the accounts and of their workspaces. -/
structure Store where
  accounts : Table TradingAccount
  workspaces : Table HostedMt5Workspace

namespace Store

def workspace (store : Store) (pk : ℕ) : Option (HostedMt5Workspace × TradingAccount) :=
  (store.workspaces.get pk).bind fun ws =>
    (store.accounts.get ws.tradingAccount).map fun acct => (ws, acct)

def updateAccount (store : Store) (pk : ℕ) (f : TradingAccount → TradingAccount) : Store :=
  { store with accounts := store.accounts.modify pk f }

def updateWorkspace (store : Store) (pk : ℕ) (f : HostedMt5Workspace → HostedMt5Workspace) : Store :=
  { store with workspaces := store.workspaces.modify pk f }

@[simp] lemma accounts_updateAccount (store : Store) (pk : ℕ) (f : TradingAccount → TradingAccount) :
    (store.updateAccount pk f).accounts = store.accounts.modify pk f := rfl

@[simp] lemma workspaces_updateWorkspace (store : Store) (pk : ℕ)
    (f : HostedMt5Workspace → HostedMt5Workspace) :
    (store.updateWorkspace pk f).workspaces = store.workspaces.modify pk f := rfl

lemma workspace_eq_some {store : Store} {pk : ℕ} {ws : HostedMt5Workspace} {acct : TradingAccount} :
    store.workspace pk = some (ws, acct) ↔
      store.workspaces.get pk = some ws ∧ store.accounts.get ws.tradingAccount = some acct := by
  unfold workspace
  cases store.workspaces.get pk with
  | none => simp
  | some ws' =>
    cases hacct : store.accounts.get ws'.tradingAccount with
    | none =>
      simp only [Option.bind_some, hacct, Option.map_none, Option.some.injEq]
      constructor
      · intro h
        cases h
      · rintro ⟨rfl, h⟩
        rw [hacct] at h
        cases h
    | some acct' =>
      simp only [Option.bind_some, hacct, Option.map_some, Option.some.injEq, Prod.mk.injEq]
      constructor
      · rintro ⟨rfl, rfl⟩
        exact ⟨rfl, hacct⟩
      · rintro ⟨rfl, h⟩
        exact ⟨rfl, Option.some.inj (hacct.symm.trans h)⟩

end Store

/-! ### Confirmation -/

structure ConfirmResult where
  ok : Bool
  reason : String
  deriving DecidableEq, Repr

/-- The account once the customer has confirmed it; a cutover that is set stays. -/
def TradingAccount.confirm (now : ℤ) (acct : TradingAccount) : TradingAccount :=
  { acct with
    workspaceConfirmedAt := some now
    ingestCutoverTime := some (acct.ingestCutoverTime.getD now)
    isActive := true }

/-- Whether an account can be confirmed: the account observed in the connected workspace is this one. -/
def HostedMt5Workspace.matched (ws : HostedMt5Workspace) : Bool :=
  (ws.canonicalState = .connected || ws.canonicalState = .executionReady)
    && ws.projAccountMatch = some true

def confirmBrokerAccount (admission : Option String) (user workspace : ℕ) (now : ℤ) (store : Store) :
    Store × ConfirmResult :=
  match admission with
  | some reason => (store, ⟨false, reason⟩)
  | none =>
    match store.workspace workspace with
    | none => (store, ⟨false, "does_not_exist"⟩)
    | some (ws, acct) =>
      if acct.user ≠ user then (store, ⟨false, "not_owner"⟩)
      else if acct.workspaceConfirmedAt.isSome then (store, ⟨true, "already_confirmed"⟩)
      else if !ws.matched then (store, ⟨false, "no_discovered_match"⟩)
      else (store.updateAccount ws.tradingAccount (TradingAccount.confirm now), ⟨true, "confirmed"⟩)

/-- Whether a confirmation goes through, and of which account. -/
def confirms (admission : Option String) (user workspace : ℕ) (store : Store) : Option ℕ :=
  (store.workspace workspace).bind fun (ws, acct) =>
    if admission = none ∧ acct.user = user ∧ acct.workspaceConfirmedAt = none ∧ ws.matched then
      some ws.tradingAccount
    else none

lemma confirmBrokerAccount_store (admission : Option String) (user workspace : ℕ) (now : ℤ)
    (store : Store) :
    (confirmBrokerAccount admission user workspace now store).1 =
      match confirms admission user workspace store with
      | none => store
      | some pk => store.updateAccount pk (TradingAccount.confirm now) := by
  unfold confirmBrokerAccount confirms
  cases admission with
  | some reason => cases store.workspace workspace <;> simp
  | none =>
    cases store.workspace workspace with
    | none => rfl
    | some row =>
      obtain ⟨ws, acct⟩ := row
      dsimp only [Option.bind_some]
      split_ifs with hown hconfirmed hmatched hall hall hall hall <;> simp_all

/-! ### Authorization -/

structure AuthorizeResult where
  ok : Bool
  reason : String
  deriving DecidableEq, Repr

/-- The workspace once the customer has authorized automated trading. -/
def HostedMt5Workspace.authorize (now : ℤ) (ws : HostedMt5Workspace) : HostedMt5Workspace :=
  { ws with executionAuthorizedAt := some now }

/-- Record the authorization of a workspace; the attempt to arm comes afterwards.  A managed start
authorizes before the workspace is ready for execution. -/
def authorizeWorkspaceExecution (admission : Option String) (user workspace : ℕ) (allowPreReady : Bool)
    (now : ℤ) (store : Store) : Store × AuthorizeResult :=
  match admission with
  | some reason => (store, ⟨false, reason⟩)
  | none =>
    match store.workspace workspace with
    | none => (store, ⟨false, "does_not_exist"⟩)
    | some (ws, acct) =>
      if acct.user ≠ user then (store, ⟨false, "not_owner"⟩)
      else if acct.workspaceConfirmedAt.isNone then (store, ⟨false, "account_not_confirmed"⟩)
      else if ws.projConnected ≠ some true ∨ ws.projAccountMatch ≠ some true then
        (store, ⟨false, "workspace_not_execution_ready"⟩)
      else if !allowPreReady ∧ ws.canonicalState ≠ .executionReady then
        (store, ⟨false, "workspace_not_execution_ready"⟩)
      else if ws.executionAuthorizedAt.isSome then (store, ⟨true, "already_authorized"⟩)
      else
        (store.updateWorkspace workspace (HostedMt5Workspace.authorize now), ⟨true, "authorized"⟩)

def authorizes (admission : Option String) (user workspace : ℕ) (allowPreReady : Bool)
    (store : Store) : Bool :=
  (store.workspace workspace).any fun (ws, acct) =>
    admission = none && acct.user = user && acct.workspaceConfirmedAt.isSome
      && ws.projConnected = some true && ws.projAccountMatch = some true
      && (allowPreReady || ws.canonicalState = .executionReady) && ws.executionAuthorizedAt.isNone

lemma authorizeWorkspaceExecution_store (admission : Option String) (user workspace : ℕ)
    (allowPreReady : Bool) (now : ℤ) (store : Store) :
    (authorizeWorkspaceExecution admission user workspace allowPreReady now store).1 =
      if authorizes admission user workspace allowPreReady store then
        store.updateWorkspace workspace (HostedMt5Workspace.authorize now)
      else store := by
  unfold authorizeWorkspaceExecution authorizes
  cases admission with
  | some reason => cases store.workspace workspace <;> simp
  | none =>
    cases store.workspace workspace with
    | none => rfl
    | some row =>
      obtain ⟨ws, acct⟩ := row
      dsimp only [Option.any_some]
      split_ifs <;> simp_all [Option.isSome_iff_ne_none]

end HostedAccounts
end GuvFX
