/-
# Capacity of nodes and hosts

Allocations, removals and clean-ups take their steps in any order.
Only the commit of an allocation makes a node fuller, and from the look to the commit the nodes are locked.
What has succeeded in a clean-up is not undone, because there is one pass at a time.
-/
import GuvFX.HostedAccounts.Allocation
import Mathlib.Algebra.Order.BigOperators.Group.List
import Mathlib.Algebra.Order.Group.Nat

namespace GuvFX
namespace HostedAccounts
namespace Allocation

open Runs

/-! ### Occupants -/

section

variable {σ : Setting} {store store' : Store} {node pk id : ℕ}

lemma mem_nodeOccupants : id ∈ nodeOccupants store node ↔
    (∃ a, store.accounts.get id = some a ∧ a.terminalNode = some node ∧ a.isActive = true) ∨
    (∃ pk ws, store.workspaces.get pk = some ws ∧ ws.executionNode = some node ∧
      ws.cleanupState ≠ .succeeded ∧ ws.tradingAccount = id) := by
  simp only [nodeOccupants, Finset.mem_union, List.mem_toFinset, List.mem_map, Prod.exists,
    Table.mem_filter, Bool.and_eq_true, decide_eq_true_eq]
  constructor
  · rintro (⟨pk, a, ⟨hget, hnode, hactive⟩, rfl⟩ | ⟨pk, ws, ⟨hget, hnode, hstate⟩, rfl⟩)
    · exact .inl ⟨a, hget, hnode, hactive⟩
    · exact .inr ⟨pk, ws, hget, hnode, hstate, rfl⟩
  · rintro (⟨a, hget, hnode, hactive⟩ | ⟨pk, ws, hget, hnode, hstate, rfl⟩)
    · exact .inl ⟨id, a, ⟨hget, hnode, hactive⟩, rfl⟩
    · exact .inr ⟨pk, ws, ⟨hget, hnode, hstate⟩, rfl⟩

def Fewer (store store' : Store) : Prop := ∀ node, nodeOccupants store' node ⊆ nodeOccupants store node

lemma Fewer.refl (store : Store) : Fewer store store := fun _ => Finset.Subset.refl _

lemma Fewer.trans {store₁ : Store} (h₁ : Fewer store store₁) (h₂ : Fewer store₁ store') :
    Fewer store store' := fun node => (h₂ node).trans (h₁ node)

lemma fewer_updateAccount {f : TradingAccount → TradingAccount}
    (hf : ∀ a n, (f a).terminalNode = some n → (f a).isActive = true →
      a.terminalNode = some n ∧ a.isActive = true) : Fewer store (store.updateAccount pk f) := by
  intro n id hid
  rw [mem_nodeOccupants] at hid ⊢
  refine hid.imp_left ?_
  rintro ⟨a, hget, hnode, hactive⟩
  rw [Store.accounts_updateAccount, Table.get_modify] at hget
  split_ifs at hget with hpk
  · obtain ⟨old, hold, rfl⟩ := Option.map_eq_some_iff.mp hget
    obtain ⟨hnode', hactive'⟩ := hf old n hnode hactive
    exact ⟨old, hpk ▸ hold, hnode', hactive'⟩
  · exact ⟨a, hget, hnode, hactive⟩

lemma fewer_updateWorkspace {f : HostedMt5Workspace → HostedMt5Workspace}
    (haccount : ∀ ws, (f ws).tradingAccount = ws.tradingAccount)
    (hf : ∀ ws n, store.workspaces.get pk = some ws → (f ws).executionNode = some n →
      (f ws).cleanupState ≠ .succeeded → ws.executionNode = some n ∧ ws.cleanupState ≠ .succeeded) :
    Fewer store (store.updateWorkspace pk f) := by
  intro n id hid
  rw [mem_nodeOccupants] at hid ⊢
  refine hid.imp_right ?_
  rintro ⟨j, ws, hget, hnode, hstate, rfl⟩
  rw [Store.workspaces_updateWorkspace, Table.get_modify] at hget
  split_ifs at hget with hj
  · obtain ⟨old, hold, rfl⟩ := Option.map_eq_some_iff.mp hget
    obtain ⟨hnode', hstate'⟩ := hf old n hold hnode hstate
    exact ⟨pk, old, hold, hnode', hstate', (haccount old).symm⟩
  · exact ⟨j, ws, hget, hnode, hstate, rfl⟩

lemma Fewer.count (h : Fewer store store') (node : ℕ) :
    nodeOccupantCount store' node ≤ nodeOccupantCount store node := Finset.card_le_card (h node)

lemma Fewer.hostCount (h : Fewer store store') (σ : Setting) (key : String) :
    hostOccupantCount σ store' key ≤ hostOccupantCount σ store key :=
  List.sum_le_sum fun row _ => h.count row.1

lemma sum_le_succ {α : Type} (rows : List (ℕ × α)) (hnodup : (rows.map Prod.fst).Nodup) {f g : ℕ → ℕ}
    (hone : g node ≤ f node + 1) (hother : ∀ k, k ≠ node → g k ≤ f k) :
    (rows.map fun row => g row.1).sum ≤ (rows.map fun row => f row.1).sum + 1 := by
  have hcount : (rows.map fun row => g row.1).sum ≤
      (rows.map fun row => f row.1).sum + (rows.map Prod.fst).count node := by
    clear hnodup
    induction rows with
    | nil => simp
    | cons row rows ih =>
      simp only [List.map_cons, List.sum_cons, List.count_cons]
      by_cases hrow : row.1 = node
      · rw [hrow] at *
        simp only [beq_self_eq_true, if_true]
        omega
      · have := hother row.1 hrow
        simp only [beq_iff_eq, hrow, if_false]
        omega
  have := List.nodup_iff_count_le_one.mp hnodup node
  omega

lemma bindNode_subset {workspace account : ℕ}
    (hws : ∀ ws, store.workspaces.get workspace = some ws → ws.tradingAccount = account) :
    nodeOccupants (bindNode workspace account node store) node ⊆
      insert account (nodeOccupants store node) := by
  intro id hid
  rw [Finset.mem_insert, mem_nodeOccupants]
  rw [mem_nodeOccupants] at hid
  rcases hid with ⟨a, hget, hnode, hactive⟩ | ⟨j, ws, hget, hnode, hstate, rfl⟩
  · have hget' : (store.accounts.modify account (TradingAccount.routeTo node)).get id = some a := hget
    rw [Table.get_modify] at hget'
    split_ifs at hget' with hid
    · exact .inl hid
    · exact .inr (.inl ⟨a, hget', hnode, hactive⟩)
  · have hget' : (store.workspaces.modify workspace (HostedMt5Workspace.bindNode node)).get j = some ws :=
      hget
    rw [Table.get_modify] at hget'
    split_ifs at hget' with hj
    · obtain ⟨old, hold, rfl⟩ := Option.map_eq_some_iff.mp hget'
      exact .inl (hws old hold)
    · exact .inr (.inr ⟨j, ws, hget', hnode, hstate, rfl⟩)

lemma bindNode_subset_of_ne {workspace account other : ℕ} (hother : other ≠ node) :
    nodeOccupants (bindNode workspace account node store) other ⊆ nodeOccupants store other := by
  intro id hid
  rw [mem_nodeOccupants] at hid ⊢
  rcases hid with ⟨a, hget, hnode, hactive⟩ | ⟨j, ws, hget, hnode, hstate, rfl⟩
  · have hget' : (store.accounts.modify account (TradingAccount.routeTo node)).get id = some a := hget
    rw [Table.get_modify] at hget'
    split_ifs at hget'
    · obtain ⟨old, hold, rfl⟩ := Option.map_eq_some_iff.mp hget'
      exact absurd (Option.some.inj hnode).symm hother
    · exact .inl ⟨a, hget', hnode, hactive⟩
  · have hget' : (store.workspaces.modify workspace (HostedMt5Workspace.bindNode node)).get j = some ws :=
      hget
    rw [Table.get_modify] at hget'
    split_ifs at hget'
    · obtain ⟨old, hold, rfl⟩ := Option.map_eq_some_iff.mp hget'
      exact absurd (Option.some.inj hnode).symm hother
    · exact .inr ⟨j, ws, hget', hnode, hstate, rfl⟩

lemma bindNode_count {workspace account : ℕ}
    (hws : ∀ ws, store.workspaces.get workspace = some ws → ws.tradingAccount = account) :
    nodeOccupantCount (bindNode workspace account node store) node ≤ nodeOccupantCount store node + 1 :=
  (Finset.card_le_card (bindNode_subset hws)).trans (Finset.card_insert_le ..)

lemma bindNode_count_of_ne {workspace account other : ℕ} (hother : other ≠ node) :
    nodeOccupantCount (bindNode workspace account node store) other ≤ nodeOccupantCount store other :=
  Finset.card_le_card (bindNode_subset_of_ne hother)

lemma bindNode_hostCount {workspace account : ℕ}
    (hws : ∀ ws, store.workspaces.get workspace = some ws → ws.tradingAccount = account) (σ : Setting)
    (key : String) : hostOccupantCount σ (bindNode workspace account node store) key ≤
      hostOccupantCount σ store key + 1 :=
  sum_le_succ _ (σ.nodes.nodup_keys_filter _) (bindNode_count hws) fun _ h => bindNode_count_of_ne h

lemma bindNode_hostCount_of_ne {workspace account : ℕ} {key : String}
    (hkey : ∀ row, σ.nodes.get node = some row → hostKey σ row ≠ key) :
    hostOccupantCount σ (bindNode workspace account node store) key ≤ hostOccupantCount σ store key := by
  refine List.sum_le_sum fun row hrow => bindNode_count_of_ne ?_
  rintro rfl
  obtain ⟨hget, hhost⟩ := Table.mem_filter.mp hrow
  exact hkey row.2 hget (of_decide_eq_true hhost)

end

/-! ### What every step keeps -/

/-- Workspaces keep their accounts, removed accounts stay removed, and the only clean-ups that succeed are
those that `may`. -/
structure Kept (may : ℕ → Prop) (store store' : Store) : Prop where
  workspace : ∀ pk ws', store'.workspaces.get pk = some ws' → ∃ ws, store.workspaces.get pk = some ws ∧
    ws'.tradingAccount = ws.tradingAccount ∧
    (ws'.cleanupState = .succeeded → ws.cleanupState = .succeeded ∨ may pk)
  account : ∀ pk a', store'.accounts.get pk = some a' → ∃ a, store.accounts.get pk = some a ∧
    (a.disconnectedAt.isSome = true → a'.disconnectedAt.isSome = true)

/-- No clean-up succeeds. -/
abbrev KeptAll : Store → Store → Prop := Kept fun _ => False

section

variable {may : ℕ → Prop} {store store' : Store} {pk : ℕ}

lemma Kept.refl (store : Store) : Kept may store store :=
  ⟨fun _ ws' h => ⟨ws', h, rfl, .inl⟩, fun _ a' h => ⟨a', h, id⟩⟩

lemma Kept.trans {store₁ : Store} (h₁ : Kept may store store₁) (h₂ : Kept may store₁ store') :
    Kept may store store' := by
  constructor
  · intro pk ws' hws'
    obtain ⟨ws₁, hws₁, haccount₁, hstate₁⟩ := h₂.workspace pk ws' hws'
    obtain ⟨ws, hws, haccount, hstate⟩ := h₁.workspace pk ws₁ hws₁
    exact ⟨ws, hws, haccount₁.trans haccount, fun h => (hstate₁ h).elim hstate .inr⟩
  · intro pk a' ha'
    obtain ⟨a₁, ha₁, hremoved₁⟩ := h₂.account pk a' ha'
    obtain ⟨a, ha, hremoved⟩ := h₁.account pk a₁ ha₁
    exact ⟨a, ha, hremoved₁ ∘ hremoved⟩

lemma kept_updateAccount {f : TradingAccount → TradingAccount}
    (hf : ∀ a : TradingAccount, a.disconnectedAt.isSome = true → (f a).disconnectedAt.isSome = true) :
    Kept may store (store.updateAccount pk f) := by
  refine ⟨fun _ ws' h => ⟨ws', h, rfl, .inl⟩, fun j a' h => ?_⟩
  rw [Store.accounts_updateAccount, Table.get_modify] at h
  split_ifs at h with hj
  · obtain ⟨old, hold, rfl⟩ := Option.map_eq_some_iff.mp h
    exact ⟨old, hj ▸ hold, hf old⟩
  · exact ⟨a', h, id⟩

lemma kept_updateWorkspace {f : HostedMt5Workspace → HostedMt5Workspace}
    (haccount : ∀ ws, (f ws).tradingAccount = ws.tradingAccount)
    (hf : ∀ ws, (f ws).cleanupState = .succeeded → ws.cleanupState = .succeeded ∨ may pk) :
    Kept may store (store.updateWorkspace pk f) := by
  refine ⟨fun j ws' h => ?_, fun _ a' h => ⟨a', h, id⟩⟩
  rw [Store.workspaces_updateWorkspace, Table.get_modify] at h
  split_ifs at h with hj
  · obtain ⟨old, hold, rfl⟩ := Option.map_eq_some_iff.mp h
    subst hj
    exact ⟨old, hold, haccount old, hf old⟩
  · exact ⟨ws', h, rfl, .inl⟩

end

/-- What has been cleaned up belongs to a removed account. -/
def FinishedRemoved (store : Store) : Prop :=
  ∀ pk ws, store.workspaces.get pk = some ws → ws.cleanupState = .succeeded →
    ∀ account, store.accounts.get ws.tradingAccount = some account →
      account.disconnectedAt.isSome = true

def unfinished : AttemptPhase → Bool
  | .checking | .claimed _ | .tearing .. | .finishing .. => true
  | _ => false

/-- An attempt is made for a removed account, and until it has succeeded no other has. -/
structure AttemptFits (store : Store) (attempt : Attempt) : Prop where
  removed : ∀ ws, store.workspaces.get attempt.workspace = some ws →
    ∀ account, store.accounts.get ws.tradingAccount = some account → account.disconnectedAt.isSome = true
  notSucceeded : unfinished attempt.phase = true → ∀ ws,
    store.workspaces.get attempt.workspace = some ws → ws.cleanupState ≠ .succeeded

structure NodeFits (σ : Setting) (store : Store) (workspace account node : ℕ) : Prop where
  owner : ∀ ws, store.workspaces.get workspace = some ws → ws.tradingAccount = account
  node : ∃ row, σ.nodes.get node = some row ∧ nodeOccupantCount store node < row.maxAccounts ∧
    (σ.hostCapacityGuard = true → ∃ ceiling, hostCapacityCeiling σ row.rdpHost = some ceiling ∧
      hostOccupantCount σ store (hostKey σ row) < ceiling)

section

variable {σ : Setting} {may : ℕ → Prop} {store store' : Store}

lemma FinishedRemoved.kept (h : FinishedRemoved store) (hkept : Kept may store store')
    (hmay : ∀ pk ws', may pk → store'.workspaces.get pk = some ws' → ∀ account,
      store'.accounts.get ws'.tradingAccount = some account → account.disconnectedAt.isSome = true) :
    FinishedRemoved store' := by
  intro pk ws' hws' hstate' account' haccount'
  obtain ⟨ws, hws, howner, hstate⟩ := hkept.workspace pk ws' hws'
  rcases hstate hstate' with hstate | hpk
  · obtain ⟨account, haccount, hremoved⟩ := hkept.account _ account' haccount'
    exact hremoved (h pk ws hws hstate account (howner ▸ haccount))
  · exact hmay pk ws' hpk hws' account' haccount'

lemma AttemptFits.kept {attempt : Attempt} (h : AttemptFits store attempt)
    (hkept : Kept may store store')
    (hmay : unfinished attempt.phase = true → ¬ may attempt.workspace) : AttemptFits store' attempt := by
  constructor
  · intro ws' hws' account' haccount'
    obtain ⟨ws, hws, howner, -⟩ := hkept.workspace _ ws' hws'
    obtain ⟨account, haccount, hremoved⟩ := hkept.account _ account' haccount'
    exact hremoved (h.removed ws hws account (howner ▸ haccount))
  · intro hphase ws' hws' hstate'
    obtain ⟨ws, hws, -, hstate⟩ := hkept.workspace _ ws' hws'
    exact (hstate hstate').elim (h.notSucceeded hphase ws hws) (hmay hphase)

lemma NodeFits.kept {workspace account node : ℕ} (h : NodeFits σ store workspace account node)
    (hkept : Kept may store store') (hfewer : Fewer store store') :
    NodeFits σ store' workspace account node := by
  obtain ⟨howner, row, hrow, hcount, hhost⟩ := h
  refine ⟨fun ws' hws' => ?_, row, hrow, (hfewer.count node).trans_lt hcount, fun hguard => ?_⟩
  · obtain ⟨ws, hws, howner', -⟩ := hkept.workspace _ ws' hws'
    exact howner'.trans (howner ws hws)
  · obtain ⟨ceiling, hceiling, hlt⟩ := hhost hguard
    exact ⟨ceiling, hceiling, (hfewer.hostCount σ _).trans_lt hlt⟩

end

/-! ### The writes -/

section

variable {may : ℕ → Prop} {store : Store} {workspace pk : ℕ}

lemma kept_bindNode (account node : ℕ) : Kept may store (bindNode workspace account node store) :=
  (kept_updateAccount (f := TradingAccount.routeTo node) fun _ h => h).trans
    (kept_updateWorkspace (fun _ => rfl) fun _ => .inl)

lemma kept_advance : Kept may store (store.updateWorkspace workspace HostedMt5Workspace.advance) :=
  kept_updateWorkspace (fun _ => rfl) fun _ => .inl

lemma fewer_advance : Fewer store (store.updateWorkspace workspace HostedMt5Workspace.advance) :=
  fewer_updateWorkspace (fun _ => rfl) fun _ _ _ hnode hstate => ⟨hnode, hstate⟩

lemma kept_reclaimNodes : Kept may store (reclaimNodes workspace store) := by
  refine kept_updateWorkspace (fun ws => ?_) fun ws => ?_ <;> split_ifs with hstate
  · rfl
  · rfl
  · exact fun _ => .inl hstate
  · exact .inl

lemma fewer_reclaimNodes : Fewer store (reclaimNodes workspace store) := by
  refine fewer_updateWorkspace (fun ws => ?_) fun ws n _ hnode hstate => ?_
  · split_ifs <;> rfl
  · split_ifs at hnode hstate with hsucceeded
    · cases hnode
    · exact ⟨hnode, hstate⟩

lemma kept_changedAccount (account : TradingAccount) :
    Kept may store (store.updateAccount pk (changedAccount account)) := kept_updateAccount fun _ h => h

lemma fewer_changedAccount (account : TradingAccount) :
    Fewer store (store.updateAccount pk (changedAccount account)) :=
  fewer_updateAccount fun _ _ hnode hactive => ⟨hnode, hactive⟩

lemma kept_changedWorkspace (ws : HostedMt5Workspace) :
    Kept may store (store.updateWorkspace pk (changedWorkspace ws)) :=
  kept_updateWorkspace (fun _ => rfl) fun _ => .inl

lemma fewer_changedWorkspace (ws : HostedMt5Workspace) :
    Fewer store (store.updateWorkspace pk (changedWorkspace ws)) :=
  fewer_updateWorkspace (fun _ => rfl) fun _ _ _ hnode hstate => ⟨hnode, hstate⟩

/-- A removal frees what the account occupies by itself, and its workspace stays on the node until it is
cleaned up. -/
lemma removeTransaction_spec {estate : Estate} {copy : Option (ℕ × HostedMt5Workspace)} {now : ℤ}
    (hfinished : FinishedRemoved estate.store)
    (hcopy : ∀ row, copy = some row → ∀ ws, estate.store.workspaces.get row.1 = some ws →
      ws.tradingAccount = pk) :
    Kept may estate.store (removeTransaction pk copy now estate).1.store ∧
      Fewer estate.store (removeTransaction pk copy now estate).1.store := by
  unfold removeTransaction
  split
  · exact ⟨Kept.refl _, Fewer.refl _⟩
  next locked hlocked =>
  split_ifs with hremoved
  · exact ⟨Kept.refl _, Fewer.refl _⟩
  have hkept : Kept may estate.store (estate.store.updateAccount pk (TradingAccount.tombstone now)) :=
    kept_updateAccount fun _ _ => rfl
  have hfewer : Fewer estate.store (estate.store.updateAccount pk (TradingAccount.tombstone now)) :=
    fewer_updateAccount fun _ _ _ hactive => (by cases hactive)
  match copy, hcopy with
  | none, _ => exact ⟨hkept, hfewer⟩
  | some (ws, copied), hcopy =>
    constructor
    · exact hkept.trans (kept_updateWorkspace (fun _ => rfl) fun _ h => (by cases h))
    · refine hfewer.trans (fewer_updateWorkspace (fun _ => rfl) fun stored n hstored hnode _ => ?_)
      refine ⟨hnode, fun hsucceeded => hremoved ?_⟩
      have howner : stored.tradingAccount = pk := hcopy _ rfl stored hstored
      exact hfinished ws stored hstored hsucceeded locked (howner ▸ hlocked)

lemma kept_writeCleanup {state : CleanupState} {reason : String} {next : Option ℤ}
    (hstate : state = .succeeded → may workspace) :
    Kept may store (store.updateWorkspace workspace
      (HostedMt5Workspace.writeCleanup state reason next)) :=
  kept_updateWorkspace (fun _ => rfl) fun _ h => .inr (hstate h)

lemma fewer_writeCleanup {state : CleanupState} {reason : String} {next : Option ℤ}
    (hold : ∀ ws, store.workspaces.get workspace = some ws → ws.cleanupState ≠ .succeeded) :
    Fewer store (store.updateWorkspace workspace
      (HostedMt5Workspace.writeCleanup state reason next)) :=
  fewer_updateWorkspace (fun _ => rfl) fun ws _ hws hnode _ => ⟨hnode, hold ws hws⟩

end

def succeeds (attempt : Attempt) (phase : AttemptPhase) (workspace : ℕ) : Prop :=
  workspace = attempt.workspace ∧ unfinished attempt.phase = true ∧ unfinished phase = false

section

variable {gates : CleanupGates} {attempt : Attempt} {estate : Estate}

lemma checkCleanup_spec {store : Store} {may : ℕ → Prop}
    (hold : ∀ ws, store.workspaces.get attempt.workspace = some ws → ws.cleanupState ≠ .succeeded) :
    Kept may store (checkCleanup gates attempt store).1 ∧
      Fewer store (checkCleanup gates attempt store).1 := by
  have hwrite : ∀ state reason next, state ≠ .succeeded →
      Kept may store (store.updateWorkspace attempt.workspace
        (HostedMt5Workspace.writeCleanup state reason next)) ∧
      Fewer store (store.updateWorkspace attempt.workspace
        (HostedMt5Workspace.writeCleanup state reason next)) := fun _ _ _ hstate =>
    ⟨kept_writeCleanup fun h => absurd h hstate, fewer_writeCleanup hold⟩
  simp only [checkCleanup]
  split_ifs
  · exact hwrite _ _ _ (by decide)
  · exact hwrite _ _ _ (by decide)
  · exact hwrite _ _ _ (by decide)
  · exact hwrite _ _ _ (by decide)
  · constructor
    · exact kept_updateWorkspace (fun _ => rfl) fun _ h => (by cases h)
    · exact fewer_updateWorkspace (fun _ => rfl) fun ws _ hws hnode _ => ⟨hnode, hold ws hws⟩
  · exact ⟨Kept.refl _, Fewer.refl _⟩

lemma attemptStep_spec (gates : CleanupGates) (hfits : AttemptFits estate.store attempt) :
    Kept (succeeds attempt (attemptStep gates attempt estate).2) estate.store
        (attemptStep gates attempt estate).1.store ∧
      Fewer estate.store (attemptStep gates attempt estate).1.store := by
  have hold := hfits.notSucceeded
  simp only [attemptStep]
  split
  next hphase =>
    exact checkCleanup_spec (hold (by rw [hphase]; rfl))
  · exact ⟨Kept.refl _, Fewer.refl _⟩
  · exact ⟨Kept.refl _, Fewer.refl _⟩
  next attempts failed hphase =>
    have hold := hold (by rw [hphase]; rfl)
    split_ifs with hfailed
    · exact ⟨kept_writeCleanup fun _ => ⟨rfl, by rw [hphase]; rfl, rfl⟩, fewer_writeCleanup hold⟩
    · exact ⟨kept_writeCleanup fun h => (by cases h), fewer_writeCleanup hold⟩
  · exact ⟨kept_reclaimNodes, fewer_reclaimNodes⟩
  · exact ⟨Kept.refl _, Fewer.refl _⟩
  · exact ⟨Kept.refl _, Fewer.refl _⟩

/-- What has succeeded stays so. -/
lemma unfinished_attemptStep (h : unfinished (attemptStep gates attempt estate).2 = true) :
    unfinished attempt.phase = true := by
  cases hphase : attempt.phase with
  | checking | claimed | tearing | finishing => rfl
  | reclaiming | retiring | done => simp [attemptStep, hphase, unfinished] at h

/-- The attempts of a pass: one for each workspace, all of them fitting. -/
def CycleFits (store : Store) (attempts : List Attempt) : Prop :=
  (attempts.map Attempt.workspace).Nodup ∧ ∀ attempt ∈ attempts, AttemptFits store attempt

lemma CycleFits.step (gates : CleanupGates) {rest : List Attempt} (h : CycleFits estate.store (attempt :: rest)) :
    CycleFits (attemptStep gates attempt estate).1.store
      ({ attempt with phase := (attemptStep gates attempt estate).2 } :: rest) := by
  obtain ⟨hnodup, hfits⟩ := h
  have hfirst := hfits attempt List.mem_cons_self
  obtain ⟨hkept, -⟩ := attemptStep_spec gates hfirst
  refine ⟨hnodup, fun other hother => ?_⟩
  rcases List.mem_cons.mp hother with rfl | hrest
  · exact AttemptFits.kept ⟨hfirst.removed, fun hphase => hfirst.notSucceeded (unfinished_attemptStep hphase)⟩
      hkept fun hphase hmay => by simp [hmay.2.2] at hphase
  · refine (hfits other (List.mem_cons_of_mem _ hrest)).kept hkept fun _ hmay => ?_
    simp only [List.map_cons, List.nodup_cons] at hnodup
    exact hnodup.1 (hmay.1 ▸ List.mem_map_of_mem hrest)

end

lemma selectCleanups_fits (now : ℤ) (store : Store) : CycleFits store (selectCleanups now store) := by
  have hselected : ∀ row ∈ (store.workspaces.filter fun _ ws =>
      ((store.accounts.get ws.tradingAccount).bind TradingAccount.disconnectedAt).isSome
        && ws.cleanupDue now), AttemptFits store { workspace := row.1, copy := row.2, now := now } := by
    rintro ⟨pk, ws⟩ hrow
    obtain ⟨hget, hdue⟩ := Table.mem_filter.mp hrow
    rw [Bool.and_eq_true] at hdue
    constructor
    · intro ws' hws' account haccount
      obtain rfl := Option.some.inj (hget.symm.trans hws')
      simpa [haccount] using hdue.1
    · intro _ ws' hws' hsucceeded
      obtain rfl := Option.some.inj (hget.symm.trans hws')
      simp [HostedMt5Workspace.cleanupDue, hsucceeded, CleanupState.active] at hdue
  constructor
  · simp only [selectCleanups, List.map_map]
    refine List.Nodup.sublist ((List.take_sublist _ _).map _) ?_
    exact ((List.perm_insertionSort _ _).map _).nodup_iff.mpr (store.workspaces.nodup_keys_filter _)
  · intro attempt hattempt
    simp only [selectCleanups, List.mem_map] at hattempt
    obtain ⟨row, hrow, rfl⟩ := hattempt
    exact hselected row ((List.mem_insertionSort _).mp (List.mem_of_mem_take hrow))

/-! ### The look for a node -/

lemma scanNodes_eq_some {verdict : ℕ → TerminalNode → Verdict} {rows : List (ℕ × TerminalNode)}
    {row : ℕ × TerminalNode} (h : (scanNodes verdict rows).1 = some row) :
    row ∈ rows ∧ verdict row.1 row.2 = .candidate := by
  induction rows with
  | nil => cases h
  | cons head rows ih =>
    simp only [scanNodes] at h
    split_ifs at h with hhead
    · obtain rfl := Option.some.inj h
      exact ⟨List.mem_cons_self, hhead⟩
    · obtain ⟨hmem, hrow⟩ := ih h
      exact ⟨List.mem_cons_of_mem _ hmem, hrow⟩

section

variable {σ : Setting} {store : Store}

lemma hostCapacityBlock_eq_none {node : TerminalNode} (h : hostCapacityBlock σ store node = none) :
    ∃ ceiling, hostCapacityCeiling σ node.rdpHost = some ceiling ∧
      hostOccupantCount σ store (hostKey σ node) < ceiling := by
  unfold hostCapacityBlock at h
  split at h
  · cases h
  next ceiling hceiling =>
    split_ifs at h with hfull
    exact ⟨ceiling, hceiling, not_le.mp hfull⟩

lemma hostCapacityBlock_ne_candidate (node : TerminalNode) :
    hostCapacityBlock σ store node ≠ some .candidate := by
  unfold hostCapacityBlock
  split
  · simp
  · split_ifs <;> simp

lemma nodeFits_of_examine {gates : Gates} {workspace pk : ℕ} {ws : HostedMt5Workspace}
    {row : TerminalNode} (hws : store.workspaces.get workspace = some ws)
    (hrow : σ.nodes.get pk = some row)
    (h : examine σ gates store ws.tradingAccount pk row = .candidate) :
    NodeFits σ store workspace ws.tradingAccount pk := by
  refine ⟨fun ws' hws' => ?_, row, hrow, ?_⟩
  · obtain rfl := Option.some.inj (hws.symm.trans hws')
    rfl
  · unfold examine at h
    split_ifs at h with _ _ hfull _ _ hguard
    · refine ⟨not_le.mp hfull, fun _ => hostCapacityBlock_eq_none ?_⟩
      match hblock : hostCapacityBlock σ store row with
      | none => rfl
      | some verdict =>
        rw [hblock] at h
        obtain rfl : verdict = .candidate := h
        exact absurd hblock (hostCapacityBlock_ne_candidate row)
    · exact ⟨not_le.mp hfull, fun h => absurd h hguard⟩

lemma hostCapacityCeiling_congr {node node' : TerminalNode} {ceiling ceiling' : ℕ}
    (hkey : hostKey σ node = hostKey σ node') (h : hostCapacityCeiling σ node.rdpHost = some ceiling)
    (h' : hostCapacityCeiling σ node'.rdpHost = some ceiling') : ceiling = ceiling' := by
  simp only [hostCapacityCeiling] at h h'
  simp only [hostKey] at hkey
  split_ifs at h h'
  rw [hkey] at h
  exact Option.some.inj (h.symm.trans h')

end

/-! ### The limits -/

/-- No node gets above its limit, and with the guard no host above its ceiling. -/
structure Within (σ : Setting) (store store' : Store) : Prop where
  node : ∀ pk row, σ.nodes.get pk = some row →
    nodeOccupantCount store' pk ≤ max (nodeOccupantCount store pk) row.maxAccounts
  host : σ.hostCapacityGuard = true → ∀ pk row ceiling, σ.nodes.get pk = some row →
    hostCapacityCeiling σ row.rdpHost = some ceiling →
    hostOccupantCount σ store' (hostKey σ row) ≤ max (hostOccupantCount σ store (hostKey σ row)) ceiling

section

variable {σ : Setting} {store store' : Store}

lemma Fewer.within (h : Fewer store store') : Within σ store store' :=
  ⟨fun pk _ _ => le_max_of_le_left (h.count pk),
    fun _ _ _ _ _ _ => le_max_of_le_left (h.hostCount σ _)⟩

lemma Within.trans {store₁ : Store} (h₁ : Within σ store store₁) (h₂ : Within σ store₁ store') :
    Within σ store store' := by
  constructor
  · intro pk row hrow
    have hfirst := h₁.node pk row hrow
    have hsecond := h₂.node pk row hrow
    omega
  · intro hguard pk row ceiling hrow hceiling
    have hfirst := h₁.host hguard pk row ceiling hrow hceiling
    have hsecond := h₂.host hguard pk row ceiling hrow hceiling
    omega

lemma NodeFits.within {workspace account node : ℕ} (h : NodeFits σ store workspace account node) :
    Within σ store (bindNode workspace account node store) := by
  obtain ⟨howner, chosen, hchosen, hcount, hhost⟩ := h
  constructor
  · intro pk row hrow
    by_cases hpk : pk = node
    · subst hpk
      obtain rfl := Option.some.inj (hchosen.symm.trans hrow)
      have hone : nodeOccupantCount (bindNode workspace account pk store) pk ≤ _ := bindNode_count howner
      omega
    · exact le_max_of_le_left (bindNode_count_of_ne hpk)
  · intro hguard pk row ceiling hrow hceiling
    by_cases hkey : hostKey σ chosen = hostKey σ row
    · obtain ⟨ceiling', hceiling', hlt⟩ := hhost hguard
      obtain rfl := hostCapacityCeiling_congr hkey hceiling' hceiling
      have hone : hostOccupantCount σ (bindNode workspace account node store) (hostKey σ row) ≤ _ :=
        bindNode_hostCount howner σ (hostKey σ row)
      rw [hkey] at hlt
      omega
    · refine le_max_of_le_left (bindNode_hostCount_of_ne fun row' hrow' => ?_)
      obtain rfl := Option.some.inj (hchosen.symm.trans hrow')
      exact hkey

end

/-! ### The steps of a call -/

/-- An allocation that is about to bind holds the lock and has found a node that fits; a removal works on
the workspace of its account. -/
def CallFits (σ : Setting) (store : Store) (lock : Option (ℕ × ℕ)) (k : ℕ) (kind : Kind) :
    Phase → Prop
  | .binding account node _ _ => ∃ workspace, kind = .allocate workspace ∧ lock = some (k, workspace) ∧
      NodeFits σ store workspace account node
  | .removing (some row) => ∃ pk copy, kind = .remove pk copy ∧
      ∀ ws, store.workspaces.get row.1 = some ws → ws.tradingAccount = pk
  | _ => True

lemma CallFits.kept {σ : Setting} {may : ℕ → Prop} {store store' : Store} {lock lock' : Option (ℕ × ℕ)}
    {k : ℕ} {kind : Kind} {phase : Phase} (h : CallFits σ store lock k kind phase)
    (hkept : Kept may store store')
    (hlock : (lock' = lock ∧ Fewer store store') ∨ ∀ workspace, lock ≠ some (k, workspace)) :
    CallFits σ store' lock' k kind phase := by
  match phase, h with
  | .binding account node hostname needsAdvance, ⟨workspace, hkind, heq, hfits⟩ =>
    rcases hlock with ⟨rfl, hfewer⟩ | hother
    · exact ⟨workspace, hkind, heq, hfits.kept hkept hfewer⟩
    · exact absurd heq (hother workspace)
  | .removing (some row), ⟨pk, copy, hkind, howner⟩ =>
    refine ⟨pk, copy, hkind, fun ws' hws' => ?_⟩
    obtain ⟨ws, hws, howner', -⟩ := hkept.workspace _ ws' hws'
    exact howner'.trans (howner ws hws)
  | .removing none, _ | .opening, _ | .preparing .., _ | .advancing .., _ | .done _, _ => trivial

/-- What a step of call `k` does to the rows and to the lock. -/
structure StepSpec (σ : Setting) (k : ℕ) (s : State) (kind : Kind) (out : State × Phase) : Prop where
  kept : KeptAll s.estate.store out.1.estate.store
  within : Within σ s.estate.store out.1.estate.store
  lock : (out.1.nodesLock = s.nodesLock ∧ Fewer s.estate.store out.1.estate.store) ∨
    ∀ j workspace, j ≠ k → s.nodesLock ≠ some (j, workspace)
  fits : CallFits σ out.1.estate.store out.1.nodesLock k kind out.2
  cycle : out.1.cycle = s.cycle

section

variable {σ : Setting} {k : ℕ} {s : State} {kind : Kind} {gates : Gates}

lemma StepSpec.same {phase : Phase} (hfits : CallFits σ s.estate.store s.nodesLock k kind phase) :
    StepSpec σ k s kind (s, phase) :=
  ⟨Kept.refl _, (Fewer.refl _).within, .inl ⟨rfl, Fewer.refl _⟩, hfits, rfl⟩

lemma StepSpec.fewer {estate : Estate} {phase : Phase}
    (hkept : KeptAll s.estate.store estate.store) (hfewer : Fewer s.estate.store estate.store)
    (hfits : CallFits σ estate.store s.nodesLock k kind phase) :
    StepSpec σ k s kind ({ s with estate := estate }, phase) :=
  ⟨hkept, hfewer.within, .inl ⟨rfl, hfewer⟩, hfits, rfl⟩

lemma callFits_afterTransaction {store : Store} {lock : Option (ℕ × ℕ)} (needsAdvance : Bool)
    (reason hostname : String) :
    CallFits σ store lock k kind (afterTransaction needsAdvance reason hostname) := by
  unfold afterTransaction
  split_ifs <;> trivial

lemma openAllocation_spec (workspace : ℕ) :
    StepSpec σ k s (.allocate workspace) (openAllocation σ k workspace gates s) := by
  simp only [openAllocation]
  split
  · exact .same trivial
  next ws acct hws =>
  obtain ⟨hget, -⟩ := Store.workspace_eq_some.mp hws
  split
  · exact .same trivial
  split
  · split_ifs
    · exact .same trivial
    · exact .same (callFits_afterTransaction ..)
  split
  · exact .same trivial
  next hlocked =>
  have hfree : s.nodesLock = none := Option.not_isSome_iff_eq_none.mp hlocked
  split
  · exact .same trivial
  next pk row hscan =>
    -- the lock is free, and the node that is found fits
    obtain ⟨hmem, hcandidate⟩ := scanNodes_eq_some hscan
    have hrow : σ.nodes.get pk = some row :=
      Table.get_eq_some_iff.mpr ((List.mem_insertionSort _).mp hmem)
    have hfits := nodeFits_of_examine hget hrow hcandidate
    refine ⟨Kept.refl _, (Fewer.refl _).within, .inr fun j w _ => ?_, ?_, rfl⟩
    · rw [hfree]
      simp
    · exact ⟨workspace, rfl, rfl, hfits⟩

lemma commitAllocation_spec {workspace account node : ℕ} {hostname : String} {needsAdvance : Bool}
    (hfits : NodeFits σ s.estate.store workspace account node)
    (hlock : s.nodesLock = some (k, workspace)) :
    StepSpec σ k s kind (commitAllocation σ workspace account node hostname needsAdvance gates s) := by
  have hmine : ∀ j w, j ≠ k → s.nodesLock ≠ some (j, w) := by
    intro j w hj heq
    rw [hlock] at heq
    exact hj (congrArg Prod.fst (Option.some.inj heq)).symm
  simp only [commitAllocation]
  split_ifs
  · exact ⟨Kept.refl _, (Fewer.refl _).within, .inr hmine, trivial, rfl⟩
  · exact ⟨kept_bindNode account node, hfits.within, .inr hmine, callFits_afterTransaction .., rfl⟩

lemma callStep_spec (gates : Gates) {call : Call} (hfinished : FinishedRemoved s.estate.store)
    (hfits : CallFits σ s.estate.store s.nodesLock k call.kind call.phase) :
    StepSpec σ k s call.kind (callStep σ k s call gates) := by
  obtain ⟨kind, phase, bound⟩ := call
  match kind, phase, hfits with
  | .allocate workspace, .opening, _ => exact openAllocation_spec workspace
  | .allocate workspace, .binding account node hostname needsAdvance, ⟨_, hkind, hlock, hnode⟩ =>
    cases hkind
    exact commitAllocation_spec hnode hlock
  | .allocate workspace, .preparing reason hostname, _ =>
    simp only [callStep]
    split <;> exact .same trivial
  | .allocate workspace, .advancing reason hostname, _ =>
    simp only [callStep]
    split_ifs
    · exact .fewer kept_advance fewer_advance trivial
    · exact .same trivial
  | .remove pk account, .opening, _ =>
    simp only [callStep]
    split_ifs
    · exact .same trivial
    · exact .same trivial
    · refine .same ?_
      match hworkspace : workspaceOf s.estate.store pk with
      | none => trivial
      | some (w, copy) =>
        have howner := of_decide_eq_true (Table.of_first hworkspace)
        refine ⟨pk, account, rfl, fun ws hws => ?_⟩
        obtain rfl := Option.some.inj ((Table.get_of_first hworkspace).symm.trans hws)
        exact howner
  | .remove pk account, .removing workspace, hfits =>
    have hcopy : ∀ row, workspace = some row → ∀ ws,
        s.estate.store.workspaces.get row.1 = some ws → ws.tradingAccount = pk := by
      rintro row rfl
      obtain ⟨_, _, hkind, howner⟩ := hfits
      cases hkind
      exact howner
    obtain ⟨hkept, hfewer⟩ := removeTransaction_spec hfinished hcopy
    exact .fewer hkept hfewer trivial
  | .allocate _, .removing _, hfits | .allocate _, .done _, hfits => exact .same hfits
  | .remove .., .binding .., hfits | .remove .., .preparing .., hfits
  | .remove .., .advancing .., hfits | .remove .., .done _, hfits => exact .same hfits

end

/-! ### Every run -/

/-- The invariant. -/
structure Inv (σ : Setting) (s : State) : Prop where
  finished : FinishedRemoved s.estate.store
  cycle : ∀ attempts, s.cycle = some attempts → CycleFits s.estate.store attempts
  call : ∀ k call, s.calls k = some call →
    CallFits σ s.estate.store s.nodesLock k call.kind call.phase

section

variable {σ : Setting} {s : State}

lemma inv_start {estate : Estate} (h : FinishedRemoved estate.store) : Inv σ (start estate) :=
  ⟨h, fun _ h => (by cases h), fun _ _ h => (by cases h)⟩

/-- A step that writes rows, finishes no clean-up and makes no node fuller. -/
lemma Inv.write (hinv : Inv σ s) {estate : Estate} (hkept : KeptAll s.estate.store estate.store)
    (hfewer : Fewer s.estate.store estate.store) : Inv σ { s with estate := estate } where
  finished := hinv.finished.kept hkept fun _ _ h => h.elim
  cycle attempts hattempts := by
    obtain ⟨hnodup, hfits⟩ := hinv.cycle attempts hattempts
    exact ⟨hnodup, fun attempt h => (hfits attempt h).kept hkept fun _ => not_false⟩
  call k call hcall := (hinv.call k call hcall).kept hkept (.inl ⟨rfl, hfewer⟩)

lemma Inv.begin (hinv : Inv σ s) (k : ℕ) (kind : Kind) :
    Inv σ { s with calls := Function.update s.calls k (some { kind := kind }) } where
  finished := hinv.finished
  cycle := hinv.cycle
  call j call hcall := by
    dsimp only at hcall
    by_cases hj : j = k
    · subst hj
      rw [Function.update_self] at hcall
      obtain rfl := Option.some.inj hcall
      trivial
    · rw [Function.update_of_ne hj] at hcall
      exact hinv.call j call hcall

lemma Inv.go (hinv : Inv σ s) {k : ℕ} {call : Call} {out : State × Phase} {bound : Bool}
    (h : StepSpec σ k s call.kind out) :
    Inv σ { out.1 with
      calls := Function.update s.calls k (some { call with phase := out.2, bound := bound }) } where
  finished := hinv.finished.kept h.kept fun _ _ h => h.elim
  cycle attempts hattempts := by
    obtain ⟨hnodup, hfits⟩ := hinv.cycle attempts (h.cycle ▸ hattempts)
    exact ⟨hnodup, fun attempt hmem => (hfits attempt hmem).kept h.kept fun _ => not_false⟩
  call j call' hcall' := by
    dsimp only at hcall'
    by_cases hj : j = k
    · subst hj
      rw [Function.update_self] at hcall'
      obtain rfl := Option.some.inj hcall'
      exact h.fits
    · rw [Function.update_of_ne hj] at hcall'
      exact (hinv.call j call' hcall').kept h.kept (h.lock.imp_right fun hlock w => hlock j w hj)

lemma cycleStep_spec (hinv : Inv σ s) (gates : CleanupGates) :
    Inv σ (cycleStep gates s) ∧ Fewer s.estate.store (cycleStep gates s).estate.store := by
  unfold cycleStep
  match hcycle : s.cycle with
  | none => exact ⟨hinv, Fewer.refl _⟩
  | some [] => exact ⟨⟨hinv.finished, fun _ h => (by cases h), hinv.call⟩, Fewer.refl _⟩
  | some (attempt :: rest) =>
    have hfits := hinv.cycle _ hcycle
    have hfirst := hfits.2 attempt List.mem_cons_self
    obtain ⟨hkept, hfewer⟩ := attemptStep_spec gates hfirst
    have hrest : CycleFits s.estate.store rest :=
      ⟨(List.nodup_cons.mp hfits.1).2, fun other h => hfits.2 other (List.mem_cons_of_mem _ h)⟩
    have hstep : Inv σ { s with
        estate := (attemptStep gates attempt s.estate).1
        cycle := some ({ attempt with phase := (attemptStep gates attempt s.estate).2 } :: rest) } := by
      refine ⟨hinv.finished.kept hkept ?_, ?_, fun k call hcall => ?_⟩
      · -- the account of an attempt that succeeds has been removed
        rintro pk ws' ⟨rfl, -, -⟩ hws' account' haccount'
        exact (hfits.step gates).2 _ List.mem_cons_self |>.removed ws' hws' account' haccount'
      · intro attempts hattempts
        obtain rfl := Option.some.inj hattempts
        exact hfits.step gates
      · exact (hinv.call k call hcall).kept hkept (.inl ⟨rfl, hfewer⟩)
    cases hphase : attempt.phase with
    | done outcome reason =>
      simp only [hphase]
      refine ⟨⟨hinv.finished, fun attempts hattempts => ?_, hinv.call⟩, Fewer.refl _⟩
      obtain rfl := Option.some.inj hattempts
      exact hrest
    | _ =>
      simp only [hphase]
      exact ⟨hstep, hfewer⟩

lemma step_spec (hinv : Inv σ s) (a : Action) :
    Inv σ (step σ s a) ∧ Within σ s.estate.store (step σ s a).estate.store := by
  have hsame : Within σ s.estate.store s.estate.store := (Fewer.refl _).within
  cases a with
  | allocate k workspace =>
    simp only [step]
    split
    · exact ⟨hinv, hsame⟩
    · exact ⟨hinv.begin k _, hsame⟩
  | remove k pk =>
    simp only [step]
    split
    · exact ⟨hinv.begin k _, hsame⟩
    · exact ⟨hinv, hsame⟩
  | go k gates =>
    simp only [step]
    split
    · exact ⟨hinv, hsame⟩
    next call hcall =>
      have hspec := callStep_spec gates hinv.finished (hinv.call k call hcall)
      exact ⟨hinv.go hspec, hspec.within⟩
  | die k =>
    refine ⟨⟨hinv.finished, hinv.cycle, fun j call hcall => ?_⟩, hsame⟩
    dsimp only [step] at hcall
    by_cases hj : j = k
    · rw [hj, Function.update_self] at hcall
      cases hcall
    · rw [Function.update_of_ne hj] at hcall
      have hkept : KeptAll s.estate.store s.estate.store := Kept.refl _
      refine (hinv.call j call hcall).kept hkept ?_
      -- the lock of another call stays
      match hlock : s.nodesLock with
      | none => exact .inr fun _ => nofun
      | some (i, w) =>
        by_cases hi : i = k
        · refine .inr fun w' heq => hj ?_
          rw [← hi]
          exact (congrArg Prod.fst (Option.some.inj heq)).symm
        · exact .inl ⟨by simp [step, hi, hlock], Fewer.refl _⟩
  | cycle now =>
    simp only [step]
    split
    · exact ⟨hinv, hsame⟩
    · refine ⟨⟨hinv.finished, fun attempts hattempts => ?_, hinv.call⟩, hsame⟩
      obtain rfl := Option.some.inj hattempts
      exact selectCleanups_fits now _
  | goCycle gates =>
    obtain ⟨hstep, hfewer⟩ := cycleStep_spec hinv gates
    exact ⟨hstep, hfewer.within⟩
  | dieCycle => exact ⟨⟨hinv.finished, fun _ h => (by cases h), hinv.call⟩, hsame⟩
  | reclaim workspace =>
    exact ⟨hinv.write kept_reclaimNodes fewer_reclaimNodes, fewer_reclaimNodes.within⟩
  | otherAccount pk account =>
    exact ⟨hinv.write (kept_changedAccount account) (fewer_changedAccount account),
      (fewer_changedAccount account).within⟩
  | otherWorkspace pk ws =>
    exact ⟨hinv.write (kept_changedWorkspace ws) (fewer_changedWorkspace ws),
      (fewer_changedWorkspace ws).within⟩

end

instance {σ : Setting} : Std.Refl fun s s' : State => Within σ s.estate.store s'.estate.store :=
  ⟨fun _ => (Fewer.refl _).within⟩

instance {σ : Setting} : IsTrans State fun s s' => Within σ s.estate.store s'.estate.store :=
  ⟨fun _ _ _ => Within.trans⟩

lemma within_run {σ : Setting} {s : State} (hinv : Inv σ s) (as : List Action) :
    Within σ s.estate.store (run (step σ) s as).estate.store :=
  run_rel (R := fun s s' : State => Within σ s.estate.store s'.estate.store)
    (fun _ a h => (step_spec h a).1) (fun _ a h => (step_spec h a).2) hinv as

/-! ### Allocations that fail -/

/-- The call is over, without success. -/
def Phase.failed : Phase → Bool
  | .done result => !result.ok
  | _ => false

/-- The call dies in this step. -/
def Action.kills (k : ℕ) : Action → Bool
  | .die j => j = k
  | _ => false

structure Progress (call call' : Call) : Prop where
  kind : call'.kind = call.kind
  bound : call.bound = true → call'.bound = true
  done : ∀ result, call.phase = .done result → call'.phase = .done result

lemma Progress.refl (call : Call) : Progress call call := ⟨rfl, id, fun _ => id⟩

lemma Progress.trans {call₁ call₂ call₃ : Call} (h₁ : Progress call₁ call₂) (h₂ : Progress call₂ call₃) :
    Progress call₁ call₃ :=
  ⟨h₂.kind.trans h₁.kind, h₂.bound ∘ h₁.bound, fun result h => h₂.done result (h₁.done result h)⟩

section

variable {σ : Setting} {k : ℕ}

lemma calls_cycleStep (gates : CleanupGates) (s : State) : (cycleStep gates s).calls = s.calls := by
  unfold cycleStep
  split
  · rfl
  · rfl
  · split <;> rfl

lemma callStep_done {s : State} {call : Call} {gates : Gates} {result : AllocResult}
    (h : call.phase = .done result) : (callStep σ k s call gates).2 = .done result := by
  cases hkind : call.kind <;> simp [callStep, h, hkind]

lemma progress_step {s : State} {call : Call} {a : Action} (hcall : s.calls k = some call)
    (ha : a.kills k = false) : ∃ call', (step σ s a).calls k = some call' ∧ Progress call call' := by
  have hsame : ∃ call', s.calls k = some call' ∧ Progress call call' := ⟨call, hcall, .refl call⟩
  have hother : ∀ j c, j ≠ k → Function.update s.calls j c k = s.calls k := fun j c hj =>
    Function.update_of_ne (Ne.symm hj) ..
  cases a with
  | allocate j workspace =>
    simp only [step]
    split
    · exact hsame
    next hnone =>
      have hj : j ≠ k := fun hj => by simp [hj, hcall] at hnone
      simpa only [hother _ _ hj] using hsame
  | remove j pk =>
    simp only [step]
    split
    next hnone _ =>
      have hj : j ≠ k := fun hj => by simp [hj, hcall] at hnone
      simpa only [hother _ _ hj] using hsame
    · exact hsame
  | go j gates =>
    simp only [step]
    split
    · exact hsame
    next call₁ hcall₁ =>
      by_cases hj : j = k
      · subst hj
        obtain rfl := Option.some.inj (hcall₁.symm.trans hcall)
        refine ⟨_, Function.update_self .., rfl, fun h => by simp [h], fun result h => ?_⟩
        exact callStep_done h
      · simpa only [hother _ _ hj] using hsame
  | die j =>
    have hj : j ≠ k := fun hj => by simp [Action.kills, hj] at ha
    simpa only [step, hother _ _ hj] using hsame
  | cycle now =>
    simp only [step]
    split <;> exact hsame
  | goCycle gates => simpa only [step, calls_cycleStep] using hsame
  | dieCycle | reclaim | otherAccount | otherWorkspace => exact hsame

lemma progress_run {s : State} {call : Call} {as : List Action} (hcall : s.calls k = some call)
    (has : ∀ a ∈ as, a.kills k = false) :
    ∃ call', (run (step σ) s as).calls k = some call' ∧ Progress call call' := by
  induction as generalizing s call with
  | nil => exact ⟨call, hcall, .refl call⟩
  | cons a as ih =>
    obtain ⟨call₁, hcall₁, hprogress₁⟩ := progress_step (σ := σ) hcall (has a List.mem_cons_self)
    obtain ⟨call₂, hcall₂, hprogress₂⟩ := ih hcall₁ fun b hb => has b (List.mem_cons_of_mem _ hb)
    exact ⟨call₂, hcall₂, hprogress₁.trans hprogress₂⟩

/-- The look for a node writes nothing. -/
lemma estate_openAllocation (s : State) (workspace : ℕ) (gates : Gates) :
    (openAllocation σ k workspace gates s).1.estate = s.estate := by
  simp only [openAllocation]
  split
  · rfl
  split
  · rfl
  split
  · split_ifs <;> rfl
  split
  · rfl
  split <;> rfl

lemma allocation_writes {s : State} {call : Call} {workspace : ℕ} (hkind : call.kind = .allocate workspace)
    (gates : Gates) :
    (callStep σ k s call gates).1.estate = s.estate ∨
    (binds call (callStep σ k s call gates).2 = true ∧ ∃ account node,
      (callStep σ k s call gates).1.estate =
        { s.estate with store := bindNode workspace account node s.estate.store }) ∨
    ∃ result, (callStep σ k s call gates).2 = .done result ∧ result.ok = true := by
  obtain ⟨kind, phase, bound⟩ := call
  obtain rfl : kind = .allocate workspace := hkind
  cases phase with
  | opening => exact .inl (estate_openAllocation ..)
  | binding account node hostname needsAdvance =>
    simp only [callStep, commitAllocation]
    split_ifs
    · exact .inl rfl
    · refine .inr (.inl ⟨?_, account, node, rfl⟩)
      cases needsAdvance <;> rfl
  | preparing reason hostname =>
    refine .inl ?_
    simp only [callStep]
    split <;> rfl
  | advancing reason hostname =>
    simp only [callStep]
    split_ifs
    · exact .inr (.inr ⟨_, rfl, rfl⟩)
    · exact .inl rfl
  | removing workspace | done result => exact .inl rfl

/-- Within a run, the steps of a call write nothing. -/
def Untouched (σ : Setting) (s : State) (as : List Action) (k : ℕ) : Prop :=
  ∀ bs gates, bs ++ [.go k gates] <+: as →
    (run (step σ) s (bs ++ [.go k gates])).estate = (run (step σ) s bs).estate

/-- Within a run, the steps of a call write nothing but the binding of a workspace. -/
def OnlyBinds (σ : Setting) (s : State) (as : List Action) (k workspace : ℕ) : Prop :=
  ∀ bs gates, bs ++ [.go k gates] <+: as →
    let estate := (run (step σ) s bs).estate
    let estate' := (run (step σ) s (bs ++ [.go k gates])).estate
    estate' = estate ∨
      ∃ account node, estate' = { estate with store := bindNode workspace account node estate.store }

/-- In a run, an allocation that has failed without having bound has written nothing, and one that has
failed after it has bound has written nothing else. -/
def FailsClean (σ : Setting) (s : State) (as : List Action) : Prop :=
  ∀ k workspace bs cs call, as = bs ++ .allocate k workspace :: cs →
    (run (step σ) s bs).calls k = none → (∀ a ∈ cs, a.kills k = false) →
    (run (step σ) s as).calls k = some call → call.phase.failed = true →
    if call.bound then OnlyBinds σ (run (step σ) s (bs ++ [.allocate k workspace])) cs k workspace
    else Untouched σ (run (step σ) s (bs ++ [.allocate k workspace])) cs k

lemma failing_step {s : State} {call last : Call} {workspace : ℕ} {gates : Gates} {es : List Action}
    (hcall : s.calls k = some call) (hkind : call.kind = .allocate workspace)
    (hes : ∀ a ∈ es, a.kills k = false)
    (hlast : (run (step σ) (step σ s (.go k gates)) es).calls k = some last)
    (hfailed : last.phase.failed = true) :
    (step σ s (.go k gates)).estate = s.estate ∨ (last.bound = true ∧ ∃ account node,
      (step σ s (.go k gates)).estate =
        { s.estate with store := bindNode workspace account node s.estate.store }) := by
  let next : Call :=
    { call with
      phase := (callStep σ k s call gates).2
      bound := call.bound || binds call (callStep σ k s call gates).2 }
  have hstep : step σ s (.go k gates) =
      { (callStep σ k s call gates).1 with calls := Function.update s.calls k (some next) } := by
    simp only [step, hcall, next]
  have hnext : (step σ s (.go k gates)).calls k = some next := by
    rw [hstep]
    exact Function.update_self ..
  obtain ⟨last', hlast', hprogress⟩ := progress_run hnext hes
  obtain rfl := Option.some.inj (hlast'.symm.trans hlast)
  have hestate : (step σ s (.go k gates)).estate = (callStep σ k s call gates).1.estate := by
    rw [hstep]
  rw [hestate]
  rcases allocation_writes (σ := σ) (k := k) (s := s) hkind gates with h | ⟨hbinds, h⟩ | ⟨result, h, hok⟩
  · exact .inl h
  · exact .inr ⟨hprogress.bound (by simp [next, hbinds]), h⟩
  · -- the call would be over, with success
    have hdone := hprogress.done result h
    simp [Phase.failed, hdone, hok] at hfailed

lemma failsClean (s : State) (as : List Action) : FailsClean σ s as := by
  rintro k workspace bs cs last rfl hnone hcs hlast hfailed
  have hbegin : (run (step σ) s (bs ++ [.allocate k workspace])).calls k =
      some { kind := .allocate workspace } := by
    rw [run_concat]
    simp [step, hnone]
  have hstep : ∀ ds gates, ds ++ [.go k gates] <+: cs →
      let s' := run (step σ) (run (step σ) s (bs ++ [.allocate k workspace])) ds
      (step σ s' (.go k gates)).estate = s'.estate ∨ (last.bound = true ∧ ∃ account node,
        (step σ s' (.go k gates)).estate =
          { s'.estate with store := bindNode workspace account node s'.estate.store }) := by
    rintro ds gates ⟨es, rfl⟩
    obtain ⟨call, hcall, hprogress⟩ := progress_run (σ := σ) hbegin (fun a (ha : a ∈ ds) =>
      hcs a (by simp [ha]))
    refine failing_step hcall hprogress.kind (fun a (ha : a ∈ es) => hcs a (by simp [ha])) ?_ hfailed
    simpa [run_append] using hlast
  split_ifs with hbound
  · intro ds gates hds
    simpa only [run_concat] using (hstep ds gates hds).imp_right And.right
  · intro ds gates hds
    simpa only [run_concat] using (hstep ds gates hds).resolve_right fun h => hbound h.1

end

/-! ### Capacity -/

/-- No node gets above its limit and no host above its ceiling, and what fails writes no more than a
binding. -/
theorem capacity {σ : Setting} {estate : Estate} (hfinished : FinishedRemoved estate.store)
    (as : List Action) :
    let last := run (step σ) (start estate) as
    (∀ pk node, σ.nodes.get pk = some node →
      nodeOccupantCount estate.store pk ≤ node.maxAccounts →
      nodeOccupantCount last.estate.store pk ≤ node.maxAccounts) ∧
    (σ.hostCapacityGuard = true → ∀ pk node ceiling, σ.nodes.get pk = some node →
      hostCapacityCeiling σ node.rdpHost = some ceiling →
      hostOccupantCount σ estate.store (hostKey σ node) ≤ ceiling →
      hostOccupantCount σ last.estate.store (hostKey σ node) ≤ ceiling) ∧
    FailsClean σ (start estate) as := by
  intro last
  have hwithin := within_run (inv_start (σ := σ) hfinished) as
  refine ⟨fun pk node hnode hle => ?_, fun hguard pk node ceiling hnode hceiling hle => ?_, failsClean _ as⟩
  · exact (hwithin.node pk node hnode).trans (max_le hle le_rfl)
  · exact (hwithin.host hguard pk node ceiling hnode hceiling).trans (max_le hle le_rfl)

/-! ### Two runs -/

def oneNode : Setting where
  nodes := Table.empty.insert 1 { hostname := "node-1", rdpHost := "host-1", maxAccounts := 1 }
  fold := id

def twoWaiting : Estate where
  store :=
    { accounts := (Table.empty.insert 2 { user := 7 }).insert 3 { user := 8 }
      workspaces := (Table.empty.insert 4 { tradingAccount := 2 }).insert 5 { tradingAccount := 3 } }
  endpoints := Table.empty

lemma finishedRemoved_twoWaiting : FinishedRemoved twoWaiting.store := by
  have hnone : ∀ row ∈ twoWaiting.store.workspaces.rows, row.2.cleanupState ≠ .succeeded := by decide
  intro pk ws hws hstate
  exact absurd hstate (hnone (pk, ws) (Table.mem_rows_of_get hws))

/-- Both are to be allocated, and the slot of the first cannot be prepared. -/
def prepareFails : List Action :=
  [.allocate 0 4, .go 0 {}, .allocate 1 5, .go 1 {}, .go 0 {},
    .go 0 { slotPrep := true, prepFailure := some "host_executor_unavailable" }, .go 1 {}]

/-- The first allocation has failed, and its workspace is bound. -/
theorem prepareFails_bound : ¬ ∀ (σ : Setting) (estate : Estate) (as : List Action) (k workspace : ℕ)
    (call : Call), FinishedRemoved estate.store →
    (run (step σ) (start estate) as).calls k = some call → call.kind = .allocate workspace →
    call.phase.failed = true →
    ((run (step σ) (start estate) as).estate.store.workspaces.get workspace).map
        HostedMt5Workspace.executionNode =
      (estate.store.workspaces.get workspace).map HostedMt5Workspace.executionNode := by
  intro h
  have hbound := h oneNode twoWaiting prepareFails 0 4
    { kind := .allocate 4, phase := .done ⟨false, "host_executor_unavailable", "node-1"⟩, bound := true }
    finishedRemoved_twoWaiting (by decide +kernel) rfl rfl
  exact absurd hbound (by decide +kernel)

/-- The second allocation waits for the first, and is refused. -/
theorem capacity_prepareFails :
    let last := run (step oneNode) (start twoWaiting) prepareFails
    nodeOccupantCount last.estate.store 1 ≤ 1 ∧
      last.calls 1 = some { kind := .allocate 5, phase := .done ⟨false, "no_node_capacity", ""⟩ } ∧
      FailsClean oneNode (start twoWaiting) prepareFails := by
  have h := capacity (σ := oneNode) finishedRemoved_twoWaiting prepareFails
  exact ⟨h.1 1 { hostname := "node-1", rdpHost := "host-1", maxAccounts := 1 } rfl (by decide +kernel),
    by decide +kernel, h.2.2⟩

end Allocation
end HostedAccounts
end GuvFX
