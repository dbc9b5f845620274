/-
# The limit on active accounts

A user may have several accounts and only so many of them active at a time.  An activation that keeps to
the limit counts under the lock of the user, or stops the other accounts; a confirmation activates as
well, and so does the path for accounts on a shared instance, and these take no lock and count nothing.

What a step writes is summed up by `Writes`: which accounts may be active afterwards.
-/
import GuvFX.HostedAccounts.Activation

namespace GuvFX
namespace HostedAccounts
namespace Activation

open Runs

/-! ### What the writes may do -/

/-- The rows are written so that they keep their owners, no account comes back, and only those accounts
are active that may be. -/
structure Writes (may : ℕ → TradingAccount → Prop) (store store' : Store) : Prop where
  accounts : ∀ pk, Option.Rel (fun a a' => a'.user = a.user ∧
    (a'.disconnectedAt = none → a.disconnectedAt = none) ∧ (a'.isActive = true → may pk a))
    (store.accounts.get pk) (store'.accounts.get pk)
  workspaces : ∀ pk, Option.Rel (fun ws ws' => ws'.tradingAccount = ws.tradingAccount)
    (store.workspaces.get pk) (store'.workspaces.get pk)

/-- No account is activated. -/
abbrev Passive : Store → Store → Prop := Writes fun _ a => a.isActive = true

section

variable {may may₁ may₂ : ℕ → TradingAccount → Prop} {store store₁ store' : Store} {lock lock' : Option Lock}
  {user pk : ℕ}

lemma Writes.get (h : Writes may store store') {a' : TradingAccount}
    (ha' : store'.accounts.get pk = some a') :
    ∃ a, store.accounts.get pk = some a ∧ a'.user = a.user ∧
      (a'.disconnectedAt = none → a.disconnectedAt = none) ∧ (a'.isActive = true → may pk a) := by
  have hrel := h.accounts pk
  rw [ha'] at hrel
  generalize hget : store.accounts.get pk = found at hrel
  cases hrel with
  | some ha => exact ⟨_, rfl, ha⟩

lemma Writes.get_of (h : Writes may store store') {a : TradingAccount}
    (ha : store.accounts.get pk = some a) :
    ∃ a', store'.accounts.get pk = some a' ∧ a'.user = a.user := by
  have hrel := h.accounts pk
  rw [ha] at hrel
  generalize hget : store'.accounts.get pk = found at hrel
  cases hrel with
  | some ha => exact ⟨_, rfl, ha.1⟩

lemma Writes.workspace (h : Writes may store store') {ws : HostedMt5Workspace}
    (hws : store.workspaces.get pk = some ws) :
    ∃ ws', store'.workspaces.get pk = some ws' ∧ ws'.tradingAccount = ws.tradingAccount := by
  have hrel := h.workspaces pk
  rw [hws] at hrel
  generalize hget : store'.workspaces.get pk = found at hrel
  cases hrel with
  | some hws => exact ⟨_, rfl, hws⟩

lemma rel_refl {α : Type} {R : α → α → Prop} (hR : ∀ a, R a a) (o : Option α) : Option.Rel R o o := by
  cases o with
  | none => exact .none
  | some a => exact .some (hR a)

lemma rel_workspace (o : Option HostedMt5Workspace) :
    Option.Rel (fun ws ws' => ws'.tradingAccount = ws.tradingAccount) o o := by
  cases o with
  | none => exact .none
  | some ws => exact .some rfl

lemma Passive.refl (store : Store) : Passive store store :=
  ⟨fun _ => rel_refl (fun _ => ⟨rfl, id, id⟩) _, fun _ => rel_workspace _⟩

lemma Writes.mono (h : Writes may store store')
    (hmay : ∀ j a, store.accounts.get j = some a → may j a → may₁ j a) : Writes may₁ store store' := by
  refine ⟨fun j => ?_, h.workspaces⟩
  have hrel := h.accounts j
  generalize hget : store.accounts.get j = o at hrel ⊢
  generalize store'.accounts.get j = o' at hrel ⊢
  cases hrel with
  | none => exact .none
  | some ha => exact .some ⟨ha.1, ha.2.1, fun hactive => hmay _ _ hget (ha.2.2 hactive)⟩

lemma Writes.trans (h₁ : Writes may₁ store store₁) (h₂ : Writes may₂ store₁ store')
    (hmay : ∀ j a a₁, (a₁.isActive = true → may₁ j a) → may₂ j a₁ → may j a) :
    Writes may store store' := by
  refine ⟨fun j => ?_, fun j => ?_⟩
  · have hrel₁ := h₁.accounts j
    have hrel₂ := h₂.accounts j
    generalize store.accounts.get j = o at hrel₁ ⊢
    generalize store'.accounts.get j = o' at hrel₂ ⊢
    generalize store₁.accounts.get j = o₁ at hrel₁ hrel₂
    cases hrel₁ with
    | none =>
      cases hrel₂
      exact .none
    | some ha₁ =>
      cases hrel₂ with
      | some ha₂ =>
        exact .some ⟨ha₂.1.trans ha₁.1, fun hd => ha₁.2.1 (ha₂.2.1 hd),
          fun hactive => hmay _ _ _ ha₁.2.2 (ha₂.2.2 hactive)⟩
  · have hrel₁ := h₁.workspaces j
    have hrel₂ := h₂.workspaces j
    generalize store.workspaces.get j = o at hrel₁ ⊢
    generalize store'.workspaces.get j = o' at hrel₂ ⊢
    generalize store₁.workspaces.get j = o₁ at hrel₁ hrel₂
    cases hrel₁ with
    | none =>
      cases hrel₂
      exact .none
    | some ha₁ =>
      cases hrel₂ with
      | some ha₂ => exact .some (ha₂.trans ha₁)

lemma writes_updateAccount {f : TradingAccount → TradingAccount} (huser : ∀ a, (f a).user = a.user)
    (hdisconnected : ∀ a, (f a).disconnectedAt = none → a.disconnectedAt = none)
    (hactive : ∀ a, (f a).isActive = true → may pk a) (hother : ∀ j a, j ≠ pk → a.isActive = true → may j a) :
    Writes may store (store.updateAccount pk f) := by
  refine ⟨fun j => ?_, fun j => rel_workspace _⟩
  rw [Store.accounts_updateAccount, Table.get_modify]
  split_ifs with hj
  · subst hj
    cases store.accounts.get j with
    | none => exact .none
    | some a => exact .some ⟨huser a, hdisconnected a, hactive a⟩
  · exact rel_refl (fun a => ⟨rfl, id, hother j a hj⟩) _

lemma writes_activate (f : TradingAccount → TradingAccount) (huser : ∀ a, (f a).user = a.user)
    (hdisconnected : ∀ a, (f a).disconnectedAt = a.disconnectedAt) :
    Writes (fun j a => j = pk ∨ a.isActive = true) store (store.updateAccount pk f) :=
  writes_updateAccount huser (fun a h => (hdisconnected a).symm.trans h) (fun _ _ => .inl rfl)
    fun _ _ _ h => .inr h

lemma passive_updateWorkspace {f : HostedMt5Workspace → HostedMt5Workspace}
    (hf : ∀ ws, (f ws).tradingAccount = ws.tradingAccount) :
    Passive store (store.updateWorkspace pk f) := by
  refine ⟨fun j => rel_refl (fun _ => ⟨rfl, id, id⟩) _, fun j => ?_⟩
  rw [Store.workspaces_updateWorkspace, Table.get_modify]
  split_ifs with hj
  · subst hj
    cases store.workspaces.get j with
    | none => exact .none
    | some ws => exact .some (hf ws)
  · exact rel_workspace _

lemma writes_stopAccounts (pks : List ℕ) (store : Store) :
    Writes (fun j a => a.isActive = true ∧ j ∉ pks) store (stopAccounts store pks) := by
  induction pks generalizing store with
  | nil => exact (Passive.refl store).mono fun _ _ _ h => ⟨h, List.not_mem_nil⟩
  | cons pk pks ih =>
    have hone : Writes (fun j a => a.isActive = true ∧ j ≠ pk) store
        (store.updateAccount pk (setIsActive false)) :=
      writes_updateAccount (fun _ => rfl) (fun _ => id) (fun _ h => by cases h)
        fun _ _ hj h => ⟨h, hj⟩
    refine hone.trans (ih _) fun j a a₁ h₁ h₂ => ?_
    obtain ⟨hactive, hj⟩ := h₁ h₂.1
    exact ⟨hactive, by simp [hj, h₂.2]⟩

lemma writes_confirmBrokerAccount (admission : Option String) (user workspace : ℕ) (now : ℤ)
    (store : Store) :
    Writes (fun j a => a.isActive = true ∨ confirms admission user workspace store = some j) store
      (confirmBrokerAccount admission user workspace now store).1 := by
  rw [confirmBrokerAccount_store]
  cases confirms admission user workspace store with
  | none => exact (Passive.refl store).mono fun _ _ _ h => .inl h
  | some pk =>
    refine (writes_activate (TradingAccount.confirm now) (fun _ => rfl) fun _ => rfl).mono ?_
    rintro j a - (rfl | h)
    · exact .inr rfl
    · exact .inl h

lemma passive_authorizeWorkspaceExecution (admission : Option String) (user workspace : ℕ)
    (allowPreReady : Bool) (now : ℤ) (store : Store) :
    Passive store (authorizeWorkspaceExecution admission user workspace allowPreReady now store).1 := by
  rw [authorizeWorkspaceExecution_store]
  split_ifs
  · exact passive_updateWorkspace fun _ => rfl
  · exact Passive.refl store

end

/-! ### Counting -/

section

variable {may : ℕ → TradingAccount → Prop} {store store' : Store} {lock lock' : Option Lock}
  {user pk : ℕ} {a : TradingAccount}

lemma counted_eq_true : counted lock user pk a = true ↔
    a.user = user ∧ a.disconnectedAt = none ∧ settled lock pk a.isActive = true := by
  simp [counted, and_assoc]

lemma settled_mono {b b' : Bool} (hb : b = true → b' = true) (h : settled lock pk b = true) :
    settled lock pk b' = true := by
  cases lock with
  | none => exact hb h
  | some lock =>
    simp only [settled, Bool.or_eq_true, Bool.and_eq_true] at h ⊢
    exact h.imp_right fun h => ⟨hb h.1, h.2⟩

lemma settledCount_le (h : Writes may store store')
    (hmay : ∀ j a b, store.accounts.get j = some a → a.user = user → a.disconnectedAt = none →
      (b = true → may j a) → settled lock' j b = true → settled lock j a.isActive = true) :
    settledCount lock' user store' ≤ settledCount lock user store := by
  refine Table.length_filter_le fun j a' hget hcounted => ?_
  obtain ⟨huser, hdisconnected, hsettled⟩ := counted_eq_true.mp hcounted
  obtain ⟨a, ha, huser', hkept, hactive⟩ := h.get hget
  refine ⟨a, ha, counted_eq_true.mpr ⟨huser'.symm.trans huser, hkept hdisconnected, ?_⟩⟩
  exact hmay j a a'.isActive ha (huser'.symm.trans huser) (hkept hdisconnected) hactive hsettled

lemma settledCount_le_of_passive (lock : Option Lock) (user : ℕ) (h : Passive store store') :
    settledCount lock user store' ≤ settledCount lock user store :=
  settledCount_le h fun _ _ _ _ _ _ hb hsettled => settled_mono hb hsettled

lemma settledCount_le_besides (lock : Option Lock) {inst : Option ℕ} (h : Writes may store store')
    (hmay : ∀ j a, store.accounts.get j = some a → a.user = user → may j a → j = pk ∨
      (a.isActive = true ∧ (inst.isNone = true ∨ a.mt5Instance ≠ inst))) :
    settledCount lock user store' ≤ besides lock user pk inst store + 1 := by
  refine Table.length_filter_le_succ pk fun j a' hget hcounted => ?_
  obtain ⟨huser, hdisconnected, hsettled⟩ := counted_eq_true.mp hcounted
  obtain ⟨a, ha, huser', hkept, hactive⟩ := h.get hget
  by_cases hj : j = pk
  · exact .inl hj
  · refine .inr ⟨a, ha, ?_⟩
    rw [Bool.and_eq_true, counted_eq_true]
    refine ⟨by simpa using hj, huser'.symm.trans huser, hkept hdisconnected, settled_mono ?_ hsettled⟩
    intro hb
    obtain ⟨hbefore, hinst⟩ := (hmay j a ha (huser'.symm.trans huser) (hactive hb)).resolve_left hj
    simpa [hbefore] using hinst

lemma settledCount_none (user : ℕ) (store : Store) :
    settledCount none user store = activeAccountCount store.accounts user none := by
  unfold settledCount activeAccountCount
  congr 2
  funext j a
  simp only [counted, settled]
  cases a.isActive <;> simp

/-- A lock is taken where there is room. -/
lemma settledCount_concurrent {k : ℕ} {ent : Entitlements}
    (h : checkCanActivate store.accounts ent user (some pk) = none) :
    (settledCount (some ⟨k, pk, []⟩) user store : ℤ) ≤ effectiveConcurrentLimit ent := by
  have hroom : (activeAccountCount store.accounts user (some pk) : ℤ) < effectiveConcurrentLimit ent := by
    by_contra hnot
    rw [checkCanActivate, if_pos (not_lt.mp hnot)] at h
    cases h
  have hle : settledCount (some ⟨k, pk, []⟩) user store
      ≤ activeAccountCount store.accounts user (some pk) + 1 := by
    refine Table.length_filter_le_succ pk fun j a hget hcounted => ?_
    obtain ⟨huser, hdisconnected, hsettled⟩ := counted_eq_true.mp hcounted
    by_cases hj : j = pk
    · exact .inl hj
    · refine .inr ⟨a, hget, ?_⟩
      have hactive : a.isActive = true := by simpa [settled, hj] using hsettled
      simp [huser, hdisconnected, hactive, Ne.symm hj]
  omega

lemma settledCount_standard (k user pk : ℕ) (store : Store) :
    settledCount (some ⟨k, pk, siblings store.accounts user pk⟩) user store ≤ 1 := by
  refine Table.length_filter_le_one pk fun j a hget hcounted => ?_
  obtain ⟨huser, hdisconnected, hsettled⟩ := counted_eq_true.mp hcounted
  by_contra hj
  have hmem : a.isActive = true → j ∈ siblings store.accounts user pk := by
    intro hactive
    refine List.mem_map.mpr ⟨(j, a), Table.mem_filter.mpr ⟨hget, ?_⟩, rfl⟩
    simp [huser, hdisconnected, hactive, hj]
  simp only [settled, hj, decide_false, Bool.false_or, Bool.and_eq_true, Bool.not_eq_true',
    List.contains_eq_mem, decide_eq_false_iff_not] at hsettled
  exact hsettled.2 (hmem hsettled.1)

end

/-! ### The transaction of an activation -/

section

variable {gates : Gates} {pk : ℕ} {account : TradingAccount} {managed : Managed} {store store' : Store}

lemma confirms_eq_some {admission : Option String} {user workspace : ℕ} {ws : HostedMt5Workspace}
    (hws : store.workspaces.get workspace = some ws)
    (h : confirms admission user workspace store = some pk) : pk = ws.tradingAccount := by
  obtain ⟨⟨ws', acct⟩, hrow, h⟩ := Option.bind_eq_some_iff.mp h
  have hws' := (Store.workspace_eq_some.mp hrow).1
  rw [hws] at hws'
  obtain rfl := Option.some.inj hws'
  dsimp only at h
  split_ifs at h
  exact (Option.some.inj h).symm

lemma writes_confirmStart
    (hbound : ∃ ws, store.workspaces.get managed.workspace = some ws ∧ ws.tradingAccount = pk)
    (h : confirmStart gates account managed store = .ok store') :
    Writes (fun j a => j = pk ∨ a.isActive = true) store store' := by
  obtain ⟨ws, hws, hpk⟩ := hbound
  dsimp only [confirmStart] at h
  split_ifs at h
  · obtain rfl := Except.ok.inj h
    exact (Passive.refl store).mono fun _ _ _ h => .inr h
  · obtain rfl := Except.ok.inj h
    refine (writes_confirmBrokerAccount ..).mono ?_
    rintro j a - (hactive | hconfirms)
    · exact .inr hactive
    · exact .inl ((confirms_eq_some hws hconfirms).trans hpk)

lemma passive_authorizeStart (h : authorizeStart gates account managed store = .ok store') :
    Passive store store' := by
  dsimp only [authorizeStart] at h
  split_ifs at h
  · obtain rfl := Except.ok.inj h
    exact Passive.refl store
  · obtain rfl := Except.ok.inj h
    exact passive_authorizeWorkspaceExecution ..

lemma bind_eq_ok {α β : Type} {x : Except String α} {f : α → Except String β} {y : β}
    (h : x.bind f = .ok y) : ∃ a, x = .ok a ∧ f a = .ok y := by
  cases x with
  | error reason => cases h
  | ok a => exact ⟨a, rfl, h⟩

lemma map_eq_ok {α β : Type} {x : Except String α} {f : α → β} {y : β}
    (h : x.map f = .ok y) : ∃ a, x = .ok a ∧ f a = y := by
  cases x with
  | error reason => cases h
  | ok a => exact ⟨a, rfl, Except.ok.inj h⟩

lemma writes_activateWithAuthorization {managed : Option Managed} {stopped : List ℕ}
    (hbound : ∀ m, managed = some m →
      ∃ ws, store.workspaces.get m.workspace = some ws ∧ ws.tradingAccount = pk)
    (h : activateWithAuthorization gates pk account managed stopped store = .ok store') :
    Writes (fun j a => j = pk ∨ (a.isActive = true ∧ j ∉ stopped)) store store' := by
  have hstop := writes_stopAccounts stopped store
  obtain ⟨store₁, h₁, rfl⟩ := map_eq_ok h
  have hwrites : Writes (fun j a => j = pk ∨ a.isActive = true) (stopAccounts store stopped) store₁ := by
    cases managed with
    | none =>
      obtain rfl := Except.ok.inj h₁
      exact (Passive.refl _).mono fun _ _ _ h => .inr h
    | some m =>
      dsimp only at h₁
      split_ifs at h₁
      · obtain rfl := Except.ok.inj h₁
        exact (Passive.refl _).mono fun _ _ _ h => .inr h
      · obtain ⟨ws, hws, hpk⟩ := hbound m rfl
        obtain ⟨ws', hws', hpk'⟩ := hstop.workspace hws
        obtain ⟨store₂, hconfirm, hauthorize⟩ := bind_eq_ok h₁
        exact (writes_confirmStart ⟨ws', hws', hpk'.trans hpk⟩ hconfirm).trans
          (passive_authorizeStart hauthorize) fun j a a₁ ha h => ha h
  have h₂ : Writes (fun j a => j = pk ∨ (a.isActive = true ∧ j ∉ stopped)) store store₁ :=
    hstop.trans hwrites fun j a a₁ ha h => h.imp_right ha
  refine h₂.trans (writes_activate (setIsActive true) (fun _ => rfl) fun _ => rfl) ?_
  rintro j a a₁ ha (rfl | hactive)
  · exact .inl rfl
  · exact ha hactive

end

/-! ### Steps -/

def Phase.managed : Phase → Option Managed
  | .starting managed | .committing managed => managed
  | _ => none

/-- What is known of a call: whose its account is, whose the workspace of its managed start is, and that
it holds the lock when it is about to write. -/
structure Fits (users : Users) (s : State) (k : ℕ) (call : Call) : Prop where
  own : ∀ pk account b, call.kind = .setActive pk account b →
    ∃ row, s.store.accounts.get pk = some row ∧ row.user = account.user
  bound : ∀ pk account b m, call.kind = .setActive pk account b → call.phase.managed = some m →
    ∃ ws, s.store.workspaces.get m.workspace = some ws ∧ ws.tradingAccount = pk
  held : ∀ pk account b m, call.kind = .setActive pk account b → call.phase = .committing m →
    users.enforcementEnabled account.user = true →
    ∃ stopped, s.locks account.user = some ⟨k, pk, stopped⟩

inductive Moves (users : Users) (s : State) (k : ℕ) (call : Call) (a : Action) : State → Phase → Prop
  | quiet {s' : State} {phase' : Phase} (hwrites : Passive s.store s'.store) (hlocks : s'.locks = s.locks)
      (hbound : ∀ pk account b m, call.kind = .setActive pk account b → phase'.managed = some m →
        ∃ ws, s.store.workspaces.get m.workspace = some ws ∧ ws.tradingAccount = pk)
      (hheld : ∀ pk account b m, call.kind = .setActive pk account b → phase' = .committing m →
        users.enforcementEnabled account.user = false) : Moves users s k call a s' phase'
  | unguarded {s' : State} {r : Result} {pk : ℕ} {inst : Option ℕ} {row : TradingAccount}
      (hunguarded : unguarded s a = some (pk, inst)) (hrow : s.store.accounts.get pk = some row)
      (hwrites : Writes (fun j a => j = pk ∨ (a.isActive = true ∧
        (a.user = row.user → inst.isNone = true ∨ a.mt5Instance ≠ inst))) s.store s'.store)
      (hlocks : s'.locks = s.locks) : Moves users s k call a s' (.done r)
  | take {pk : ℕ} {account : TradingAccount} {b : Bool} {managed : Option Managed} {stopped : List ℕ}
      (hkind : call.kind = .setActive pk account b) (hphase : call.phase = .starting managed)
      (hfree : s.locks account.user = none)
      (hroom : (settledCount (some ⟨k, pk, stopped⟩) account.user s.store : ℤ) ≤
        effectiveConcurrentLimit (users.entitlements account.user)) :
      Moves users s k call a
        { s with locks := Function.update s.locks account.user (some ⟨k, pk, stopped⟩) }
        (.committing managed)
  | commit {s' : State} {r : Result} {pk : ℕ} {account : TradingAccount} {b : Bool}
      {managed : Option Managed} (hkind : call.kind = .setActive pk account b)
      (hphase : call.phase = .committing managed)
      (hwrites : Passive s.store s'.store ∨ Writes (fun j a => j = pk ∨ (a.isActive = true ∧
        j ∉ ((s.locks account.user).map Lock.stopped).getD [])) s.store s'.store)
      (hlocks : s'.locks = Function.update s.locks account.user none) : Moves users s k call a s' (.done r)

section

variable {users : Users} {s : State} {k pk : ℕ} {call : Call} {account : TradingAccount} {b : Bool}
  {gates : Gates} {a : Action} {phase' : Phase} {r : Result}

lemma Moves.ends (users : Users) (s : State) (k : ℕ) (call : Call) (a : Action) (r : Result) :
    Moves users s k call a s (.done r) :=
  .quiet (Passive.refl _) rfl (fun _ _ _ _ _ h => by cases h) fun _ _ _ _ _ h => by cases h

lemma Moves.stops {s' : State} (hwrites : Passive s.store s'.store) (hlocks : s'.locks = s.locks) :
    Moves users s k call a s' (.done r) :=
  .quiet hwrites hlocks (fun _ _ _ _ _ h => by cases h) fun _ _ _ _ _ h => by cases h

lemma passive_deactivate (store : Store) (pk : ℕ) :
    Passive store (store.updateAccount pk (setIsActive false)) :=
  writes_updateAccount (fun _ => rfl) (fun _ => id) (fun _ h => by cases h) fun _ _ _ h => h

lemma moves_startTrading (hkind : call.kind = .setActive pk account b) :
    Moves users s k call a (startTrading gates pk account s).1 (startTrading gates pk account s).2 := by
  unfold startTrading
  split_ifs with hmanaged hdemo hready
  · exact .ends ..
  · dsimp only
    split
    · exact .ends ..
    · exact .ends ..
    · next workspace copy _ hws =>
      split
      · exact .ends ..
      · refine .quiet (Passive.refl _) rfl (fun pk' account' b' m hkind' hm => ?_) ?_
        · obtain ⟨rfl, rfl, rfl⟩ := Kind.setActive.inj (hkind.symm.trans hkind')
          obtain rfl := Option.some.inj hm
          exact ⟨copy, Table.get_of_first hws, of_decide_eq_true (Table.of_first hws)⟩
        · intro _ _ _ _ _ h
          cases h
  · exact .ends ..
  · refine .quiet (Passive.refl _) rfl (fun _ _ _ _ _ hm => by cases hm) ?_
    intro _ _ _ _ _ h
    cases h

lemma moves_openActivation {managed : Option Managed} (hfits : Fits users s k call)
    (hkind : call.kind = .setActive pk account b) (hphase : call.phase = .starting managed) :
    Moves users s k call a (openActivation users k pk account managed s).1
      (openActivation users k pk account managed s).2 := by
  have hbound : ∀ pk' account' b' m, call.kind = .setActive pk' account' b' → managed = some m →
      ∃ ws, s.store.workspaces.get m.workspace = some ws ∧ ws.tradingAccount = pk' := by
    intro pk' account' b' m hkind' hm
    refine hfits.bound pk' account' b' m hkind' ?_
    rw [hphase]
    exact hm
  unfold openActivation
  split_ifs with henforced hlocked
  · refine .quiet (Passive.refl _) rfl hbound fun pk' account' b' m hkind' _ => ?_
    obtain ⟨rfl, rfl, rfl⟩ := Kind.setActive.inj (hkind.symm.trans hkind')
    simpa using henforced
  · refine .quiet (Passive.refl _) rfl hbound ?_
    intro _ _ _ _ _ h
    cases h
  · have hfree : s.locks account.user = none := by simpa using hlocked
    dsimp only
    split
    · split
      · exact .ends ..
      · next hroom => exact .take hkind hphase hfree (settledCount_concurrent hroom)
    · next hmode =>
      refine .take hkind hphase hfree ?_
      have hone := settledCount_standard k account.user pk s.store
      have hlimit : effectiveConcurrentLimit (users.entitlements account.user) = 1 := by
        simp [effectiveConcurrentLimit, hmode]
      rw [hlimit]
      exact_mod_cast hone

lemma moves_commitActivation {managed : Option Managed} (hfits : Fits users s k call)
    (hkind : call.kind = .setActive pk account b) (hphase : call.phase = .committing managed) :
    Moves users s k call a (commitActivation gates pk account managed s).1
      (commitActivation gates pk account managed s).2 := by
  unfold commitActivation
  dsimp only
  split
  · exact .commit hkind hphase (.inl (Passive.refl _)) rfl
  · next store hstore =>
    refine .commit hkind hphase (.inr ?_) rfl
    refine writes_activateWithAuthorization (fun m hm => ?_) hstore
    exact hfits.bound pk account b m hkind (by rw [hphase]; exact hm)

lemma moves_setActiveOnInstance {inst : ℕ} (hfits : Fits users s k call)
    (hcall : s.calls k = some ⟨.setActive pk account b, .opening⟩)
    (hkind : call.kind = .setActive pk account b) (hremoved : ¬ (b = true ∧ account.disconnectedAt.isSome))
    (hinst : account.mt5Instance = some inst) :
    Moves users s k call (.go k gates) (setActiveOnInstance gates pk account inst b s).1
      (setActiveOnInstance gates pk account inst b s).2 := by
  obtain ⟨row, hrow, hown⟩ := hfits.own pk account b hkind
  unfold setActiveOnInstance
  dsimp only
  split
  · next hb =>
    split
    · exact .ends ..
    · next hvalid =>
      have hunguarded : unguarded s (.go k gates) = some (pk, some inst) := by
        simp only [hb, true_and, Bool.not_eq_true, Option.isSome_eq_false_iff] at hremoved
        simp [unguarded, hcall, hb, hremoved, hinst, hvalid]
      refine .unguarded hunguarded hrow ?_ rfl
      have hstop := writes_stopAccounts (onInstance s.store.accounts account.user inst pk) s.store
      have hwrites : Writes (fun j a => j = pk ∨ (a.isActive = true ∧
          j ∉ onInstance s.store.accounts account.user inst pk)) s.store
          ((stopAccounts s.store (onInstance s.store.accounts account.user inst pk)).updateAccount pk
            (setIsActive true)) :=
        hstop.trans (writes_activate (setIsActive true) (fun _ => rfl) fun _ => rfl)
          fun j a a₁ ha h => h.imp_right ha
      refine hwrites.mono fun j a hget h => ?_
      by_cases hj : j = pk
      · exact .inl hj
      · obtain ⟨hactive, hnot⟩ := h.resolve_left hj
        refine .inr ⟨hactive, fun huser => .inr fun hsame => hnot ?_⟩
        refine List.mem_map.mpr ⟨(j, a), Table.mem_filter.mpr ⟨hget, ?_⟩, rfl⟩
        simp [huser, hown, hsame, hj]
  · split
    · exact .ends ..
    · exact .stops (passive_deactivate ..) rfl

lemma moves_callStep (hcall : s.calls k = some call) (hfits : Fits users s k call) :
    Moves users s k call (.go k gates) (callStep users k s call gates).1
      (callStep users k s call gates).2 := by
  obtain ⟨kind, phase⟩ := call
  cases kind with
  | confirm user workspace =>
    cases phase with
    | opening =>
      have hwrites := writes_confirmBrokerAccount gates.admission user workspace gates.now s.store
      cases hconfirms : confirms gates.admission user workspace s.store with
      | none =>
        rw [hconfirms] at hwrites
        refine .stops (hwrites.mono ?_) rfl
        rintro j a - (h | h)
        · exact h
        · cases h
      | some pk =>
        have hunguarded : unguarded s (.go k gates) = some (pk, none) := by
          simp [unguarded, hcall, hconfirms]
        obtain ⟨⟨ws, acct⟩, hrow, hif⟩ := Option.bind_eq_some_iff.mp hconfirms
        dsimp only at hif
        split_ifs at hif
        obtain rfl := Option.some.inj hif
        refine .unguarded hunguarded (Store.workspace_eq_some.mp hrow).2 (hwrites.mono ?_) rfl
        rintro j a - (h | h)
        · exact .inr ⟨h, fun _ => .inl rfl⟩
        · exact .inl (Option.some.inj (h.symm.trans hconfirms))
    | starting managed | committing managed | done r =>
      refine .quiet (Passive.refl _) rfl (fun _ _ _ _ h => by cases h) ?_
      intro _ _ _ _ h
      cases h
  | setActive pk account b =>
    cases phase with
    | opening =>
      dsimp only [callStep]
      split
      · exact .ends ..
      · next hremoved =>
        split
        · next inst hinst => exact moves_setActiveOnInstance hfits hcall rfl hremoved hinst
        · split
          · exact moves_startTrading rfl
          · exact .stops (passive_deactivate ..) rfl
    | starting managed => exact moves_openActivation hfits rfl rfl
    | committing managed => exact moves_commitActivation hfits rfl rfl
    | done r => exact .ends ..

end

/-! ### The limit holds -/

structure Kept (users : Users) (s : State) : Prop where
  fits : ∀ k call, s.calls k = some call → Fits users s k call
  room : ∀ user lock, users.enforcementEnabled user = true → s.locks user = some lock →
    (settledCount (some lock) user s.store : ℤ) ≤
      effectiveConcurrentLimit (users.entitlements user)

section

variable {users : Users} {s s' : State} {k user : ℕ} {call : Call} {a : Action} {phase' : Phase}

lemma settledCount_unguarded (lock : Option Lock) {pk : ℕ} {inst : Option ℕ} {row : TradingAccount}
    (hroom : leavesRoom users s a = true) (hunguarded : unguarded s a = some (pk, inst))
    (hrow : s.store.accounts.get pk = some row)
    (hwrites : Writes (fun j a => j = pk ∨ (a.isActive = true ∧
      (a.user = row.user → inst.isNone = true ∨ a.mt5Instance ≠ inst))) s.store s'.store)
    (henforced : users.enforcementEnabled user = true) (hlock : lock = none ∨ lock = s.locks user) :
    (settledCount lock user s'.store : ℤ) ≤ max (settledCount lock user s.store : ℤ)
      (effectiveConcurrentLimit (users.entitlements user)) := by
  by_cases hfresh : row.user = user ∧ row.isActive = false ∧ row.disconnectedAt = none
  · obtain ⟨rfl, hinactive, hconnected⟩ := hfresh
    have hle : settledCount lock row.user s'.store ≤ besides lock row.user pk inst s.store + 1 :=
      settledCount_le_besides lock hwrites fun j a _ huser h => h.imp_right fun h => ⟨h.1, h.2 huser⟩
    have hlt : (besides lock row.user pk inst s.store : ℤ) <
        effectiveConcurrentLimit (users.entitlements row.user) := by
      simp only [leavesRoom, hunguarded, hrow, Option.all_some, henforced, hinactive, hconnected,
        Bool.not_true, Bool.false_or, Option.isSome_none, List.all_cons, List.all_nil, Bool.and_true,
        Bool.and_eq_true, decide_eq_true_eq] at hroom
      rcases hlock with rfl | rfl
      · exact hroom.1
      · exact hroom.2
    omega
  · have hle : settledCount lock user s'.store ≤ settledCount lock user s.store := by
      refine settledCount_le hwrites fun j a b hget huser hconnected hb => settled_mono fun h => ?_
      rcases hb h with rfl | hactive
      · obtain rfl := Option.some.inj (hrow.symm.trans hget)
        by_contra hinactive
        exact hfresh ⟨huser, by simpa using hinactive, hconnected⟩
      · exact hactive.1
    omega

lemma settledCount_other (lock : Option Lock) {pk : ℕ} {row : TradingAccount} {stopped : List ℕ}
    (hwrites : Writes (fun j a => j = pk ∨ (a.isActive = true ∧ j ∉ stopped)) s.store s'.store)
    (hrow : s.store.accounts.get pk = some row) (huser : row.user ≠ user) :
    settledCount lock user s'.store ≤ settledCount lock user s.store := by
  refine settledCount_le hwrites fun j a b hget hother _ hb => settled_mono fun h => ?_
  rcases hb h with rfl | hactive
  · obtain rfl := Option.some.inj (hrow.symm.trans hget)
    exact absurd hother huser
  · exact hactive.1

lemma Moves.limit (hmoves : Moves users s k call a s' phase') (hkept : Kept users s)
    (hcall : s.calls k = some call) (hroom : leavesRoom users s a = true)
    (henforced : users.enforcementEnabled user = true) :
    (settledCount none user s'.store : ℤ) ≤ max (settledCount none user s.store : ℤ)
      (effectiveConcurrentLimit (users.entitlements user)) := by
  cases hmoves with
  | quiet hwrites _ _ _ =>
    have := settledCount_le_of_passive none user hwrites
    omega
  | unguarded hunguarded hrow hwrites _ =>
    exact settledCount_unguarded none hroom hunguarded hrow hwrites henforced (.inl rfl)
  | take _ _ _ _ => exact le_max_left ..
  | @commit _ _ pk account b managed hkind hphase hwrites hlocks =>
    rcases hwrites with hwrites | hwrites
    · have := settledCount_le_of_passive none user hwrites
      omega
    · obtain ⟨row, hrow, hown⟩ := (hkept.fits k call hcall).own pk account b hkind
      by_cases huser : account.user = user
      · subst huser
        obtain ⟨stopped, hlock⟩ := (hkept.fits k call hcall).held pk account b managed hkind hphase henforced
        have hle : settledCount none account.user s'.store
            ≤ settledCount (some ⟨k, pk, stopped⟩) account.user s.store := by
          refine settledCount_le hwrites fun j a b _ _ _ hb hactive => ?_
          rcases hb hactive with rfl | ⟨hactive, hnot⟩
          · simp [settled]
          · rw [hlock] at hnot
            simp only [Option.map_some, Option.getD_some] at hnot
            simp [settled, hactive, hnot]
        have := hkept.room account.user _ henforced hlock
        omega
      · have := settledCount_other none hwrites hrow (hown.trans_ne huser)
        omega

end

section

variable {users : Users} {s s' : State} {k user : ℕ} {call : Call} {a : Action} {phase' : Phase}
  {gates : Gates}

lemma Fits.write {may : ℕ → TradingAccount → Prop} (h : Fits users s k call)
    (hwrites : Writes may s.store s'.store)
    (hlocks : ∀ user lock, users.enforcementEnabled user = true → s.locks user = some lock →
      lock.call = k → s'.locks user = some lock) : Fits users s' k call := by
  refine ⟨fun pk account b hkind => ?_, fun pk account b m hkind hm => ?_,
    fun pk account b m hkind hphase henforced => ?_⟩
  · obtain ⟨row, hrow, hown⟩ := h.own pk account b hkind
    obtain ⟨row', hrow', hown'⟩ := hwrites.get_of hrow
    exact ⟨row', hrow', hown'.trans hown⟩
  · obtain ⟨ws, hws, hpk⟩ := h.bound pk account b m hkind hm
    obtain ⟨ws', hws', hpk'⟩ := hwrites.workspace hws
    exact ⟨ws', hws', hpk'.trans hpk⟩
  · obtain ⟨stopped, hlock⟩ := h.held pk account b m hkind hphase henforced
    exact ⟨stopped, hlocks _ _ henforced hlock rfl⟩

lemma Moves.writes (h : Moves users s k call a s' phase') : ∃ may, Writes may s.store s'.store := by
  cases h with
  | quiet hwrites _ _ _ => exact ⟨_, hwrites⟩
  | unguarded _ _ hwrites _ => exact ⟨_, hwrites⟩
  | take _ _ _ _ => exact ⟨_, Passive.refl _⟩
  | commit _ _ hwrites _ =>
    rcases hwrites with hwrites | hwrites
    · exact ⟨_, hwrites⟩
    · exact ⟨_, hwrites⟩

lemma Moves.locks (h : Moves users s k call a s' phase') (hfits : Fits users s k call) {lock : Lock}
    (henforced : users.enforcementEnabled user = true) (hlock : s.locks user = some lock)
    (hcall : lock.call ≠ k) : s'.locks user = some lock := by
  cases h with
  | quiet _ hlocks _ _ | unguarded _ _ _ hlocks => rw [hlocks, hlock]
  | @take pk account b managed stopped _ _ hfree _ =>
    have hne : user ≠ account.user := by
      rintro rfl
      rw [hfree] at hlock
      cases hlock
    show Function.update s.locks account.user _ user = some lock
    rw [Function.update_of_ne hne, hlock]
  | @commit _ _ pk account b managed hkind hphase _ hlocks =>
    have hne : user ≠ account.user := by
      rintro rfl
      obtain ⟨stopped, hheld⟩ := hfits.held pk account b managed hkind hphase henforced
      rw [hheld] at hlock
      obtain rfl := Option.some.inj hlock
      exact hcall rfl
    rw [hlocks, Function.update_of_ne hne, hlock]

lemma Moves.fits (h : Moves users s k call a s' phase') (hfits : Fits users s k call) :
    Fits users s' k { call with phase := phase' } := by
  obtain ⟨may, hwrites⟩ := h.writes
  refine ⟨fun pk account b hkind => ?_, fun pk account b m hkind hm => ?_,
    fun pk account b m hkind hphase henforced => ?_⟩
  · obtain ⟨row, hrow, hown⟩ := hfits.own pk account b hkind
    obtain ⟨row', hrow', hown'⟩ := hwrites.get_of hrow
    exact ⟨row', hrow', hown'.trans hown⟩
  · have hbound : ∃ ws, s.store.workspaces.get m.workspace = some ws ∧ ws.tradingAccount = pk := by
      cases h with
      | quiet _ _ hbound _ => exact hbound pk account b m hkind hm
      | unguarded _ _ _ _ => cases hm
      | take _ hstarting _ _ => exact hfits.bound pk account b m hkind (by rw [hstarting]; exact hm)
      | commit _ _ _ _ => cases hm
    obtain ⟨ws, hws, hpk⟩ := hbound
    obtain ⟨ws', hws', hpk'⟩ := hwrites.workspace hws
    exact ⟨ws', hws', hpk'.trans hpk⟩
  · cases h with
    | quiet _ _ _ hheld =>
      rw [hheld pk account b m hkind hphase] at henforced
      cases henforced
    | unguarded _ _ _ _ => cases hphase
    | @take pk' account' b' managed stopped hkind' _ _ _ =>
      obtain ⟨rfl, rfl, rfl⟩ := Kind.setActive.inj (hkind'.symm.trans hkind)
      exact ⟨stopped, Function.update_self ..⟩
    | commit _ _ _ _ => cases hphase

lemma Moves.room (h : Moves users s k call a s' phase') (hkept : Kept users s)
    (hcall : s.calls k = some call) (hroom : leavesRoom users s a = true) {lock : Lock}
    (henforced : users.enforcementEnabled user = true) (hlock : s'.locks user = some lock) :
    (settledCount (some lock) user s'.store : ℤ) ≤
      effectiveConcurrentLimit (users.entitlements user) := by
  cases h with
  | quiet hwrites hlocks _ _ =>
    have hle := settledCount_le_of_passive (some lock) user hwrites
    have := hkept.room user lock henforced (hlocks ▸ hlock)
    omega
  | unguarded hunguarded hrow hwrites hlocks =>
    rw [hlocks] at hlock
    have hle := settledCount_unguarded (some lock) hroom hunguarded hrow hwrites henforced
      (.inr hlock.symm)
    have := hkept.room user lock henforced hlock
    omega
  | @take pk account b managed stopped _ _ _ hnew =>
    by_cases huser : user = account.user
    · subst huser
      have hself : Function.update s.locks account.user (some (⟨k, pk, stopped⟩ : Lock)) account.user
          = some lock := hlock
      rw [Function.update_self] at hself
      obtain rfl := Option.some.inj hself
      exact hnew
    · have hother : Function.update s.locks account.user (some (⟨k, pk, stopped⟩ : Lock)) user
          = some lock := hlock
      rw [Function.update_of_ne huser] at hother
      exact hkept.room user lock henforced hother
  | @commit _ _ pk account b managed hkind hphase hwrites hlocks =>
    rw [hlocks] at hlock
    by_cases huser : user = account.user
    · subst huser
      rw [Function.update_self] at hlock
      cases hlock
    · rw [Function.update_of_ne huser] at hlock
      have := hkept.room user lock henforced hlock
      rcases hwrites with hwrites | hwrites
      · have hle := settledCount_le_of_passive (some lock) user hwrites
        omega
      · obtain ⟨row, hrow, hown⟩ := (hkept.fits k call hcall).own pk account b hkind
        have hle := settledCount_other (some lock) hwrites hrow (hown.trans_ne (Ne.symm huser))
        omega

end

section

variable {users : Users} {s : State} {user : ℕ} {a : Action}

lemma Kept.passive {s' : State} (h : Kept users s) (hwrites : Passive s.store s'.store)
    (hlocks : ∀ user lock, s'.locks user = some lock → s.locks user = some lock)
    (hheld : ∀ k call, s'.calls k = some call → Fits users s' k call) : Kept users s' := by
  refine ⟨hheld, fun user lock henforced hlock => ?_⟩
  have hle := settledCount_le_of_passive (some lock) user hwrites
  have := h.room user lock henforced (hlocks user lock hlock)
  omega

lemma released_eq_some {locks : ℕ → Option Lock} {k : ℕ} {lock : Lock} :
    released locks k user = some lock ↔ locks user = some lock ∧ lock.call ≠ k := by
  simp [released, Option.filter_eq_some_iff]

lemma passive_changedAccount (store : Store) (pk : ℕ) (account : TradingAccount) :
    Passive store (store.updateAccount pk (changedAccount account)) := by
  refine ⟨fun j => ?_, fun j => rel_workspace _⟩
  rw [Store.accounts_updateAccount, Table.get_modify]
  split_ifs with hj
  · subst hj
    cases store.accounts.get j with
    | none => exact .none
    | some old =>
      refine .some ⟨rfl, fun h => ?_, fun h => ?_⟩
      · simp only [changedAccount, Option.or_eq_none_iff] at h
        exact h.1
      · simp only [changedAccount, Bool.and_eq_true] at h
        exact h.1
  · exact rel_refl (fun _ => ⟨rfl, id, id⟩) _

lemma kept_step (h : Kept users s) (hroom : leavesRoom users s a = true) :
    Kept users (step users s a) := by
  cases a with
  | begin k request =>
    dsimp only [step]
    split
    · next kind hfree hkind =>
      refine h.passive (Passive.refl _) (fun _ _ h => h) fun k' call' hk' => ?_
      by_cases hk : k' = k
      · subst hk
        have hnew : Function.update s.calls k' (some ({ kind := kind } : Call)) k' = some call' := hk'
        rw [Function.update_self] at hnew
        obtain rfl := Option.some.inj hnew
        refine ⟨fun pk account b hset => ?_, fun _ _ _ _ _ hm => (by cases hm), fun _ _ _ _ _ hp => (by cases hp)⟩
        obtain rfl : kind = .setActive pk account b := hset
        cases request with
        | setActive pk' b' =>
          obtain ⟨row, hrow, hnew⟩ := Option.map_eq_some_iff.mp hkind
          obtain ⟨rfl, rfl, rfl⟩ := Kind.setActive.inj hnew
          exact ⟨row, hrow, rfl⟩
        | confirm user workspace => cases hkind
      · have hold : Function.update s.calls k (some ({ kind := kind } : Call)) k' = some call' := hk'
        rw [Function.update_of_ne hk] at hold
        exact (h.fits k' call' hold).write (Passive.refl _) fun _ _ _ hlock _ => hlock
    · exact h
  | go k gates =>
    dsimp only [step]
    split
    · exact h
    · next call hcall =>
      have hmoves : Moves users s k call (.go k gates) _ _ := moves_callStep hcall (h.fits k call hcall)
      obtain ⟨may, hwrites⟩ := hmoves.writes
      refine ⟨fun k' call' hk' => ?_, fun user lock henforced hlock =>
        hmoves.room h hcall hroom henforced hlock⟩
      dsimp only at hk'
      by_cases hk : k' = k
      · subst hk
        rw [Function.update_self] at hk'
        obtain rfl := Option.some.inj hk'
        have hfits := hmoves.fits (h.fits k' call hcall)
        exact ⟨hfits.own, hfits.bound, hfits.held⟩
      · rw [Function.update_of_ne hk] at hk'
        refine (h.fits k' call' hk').write hwrites fun user lock henforced hlock hcall' => ?_
        exact hmoves.locks (h.fits k call hcall) henforced hlock (hcall'.trans_ne hk)
  | die k =>
    refine h.passive (Passive.refl _) (fun _ _ hlock => (released_eq_some.mp hlock).1) fun k' call' hk' => ?_
    by_cases hk : k' = k
    · subst hk
      have hnone : Function.update s.calls k' none k' = some call' := hk'
      rw [Function.update_self] at hnone
      cases hnone
    · have hold : Function.update s.calls k none k' = some call' := hk'
      rw [Function.update_of_ne hk] at hold
      refine (h.fits k' call' hold).write (Passive.refl _) fun user lock _ hlock hcall' => ?_
      exact released_eq_some.mpr ⟨hlock, hcall'.trans_ne hk⟩
  | otherAccount pk account =>
    have hwrites := passive_changedAccount s.store pk account
    exact h.passive hwrites (fun _ _ h => h) fun k call hk =>
      (h.fits k call hk).write hwrites fun _ _ _ hlock _ => hlock
  | otherWorkspace pk ws =>
    have hwrites : Passive s.store (s.store.updateWorkspace pk (changedWorkspace ws)) :=
      passive_updateWorkspace fun _ => rfl
    exact h.passive hwrites (fun _ _ h => h) fun k call hk =>
      (h.fits k call hk).write hwrites fun _ _ _ hlock _ => hlock

lemma settledCount_step (h : Kept users s) (hroom : leavesRoom users s a = true)
    (henforced : users.enforcementEnabled user = true) :
    (settledCount none user (step users s a).store : ℤ) ≤ max (settledCount none user s.store : ℤ)
      (effectiveConcurrentLimit (users.entitlements user)) := by
  cases a with
  | begin k request =>
    dsimp only [step]
    split <;> exact le_max_left ..
  | go k gates =>
    dsimp only [step]
    split
    · exact le_max_left ..
    · next call hcall =>
      exact (moves_callStep hcall (h.fits k call hcall)).limit h hcall hroom henforced
  | die k => exact le_max_left ..
  | otherAccount pk account =>
    have := settledCount_le_of_passive none user (passive_changedAccount s.store pk account)
    dsimp only [step]
    omega
  | otherWorkspace pk ws =>
    have hwrites : Passive s.store (s.store.updateWorkspace pk (changedWorkspace ws)) :=
      passive_updateWorkspace fun _ => rfl
    have := settledCount_le_of_passive none user hwrites
    dsimp only [step]
    omega

end

/-- As long as the activations that do not count leave room, none raises the number of active accounts
above the limit. -/
theorem activeLimit {users : Users} {user : ℕ} (henforced : users.enforcementEnabled user = true)
    (store : Store) {as : List Action}
    (h : StepsMeet (step users) (fun s a => leavesRoom users s a = true) (start store) as) :
    NeverRises users user (start store) as := by
  rintro bs a ⟨cs, rfl⟩
  have hstart : Kept users (start store) :=
    ⟨fun _ _ hcall => (by cases hcall), fun _ _ _ hlock => (by cases hlock)⟩
  obtain ⟨hbs, -⟩ := stepsMeet_append.mp h
  obtain ⟨hbs, ha, -⟩ := stepsMeet_append.mp hbs
  have hkept := run_invariant_of_meets (P := Kept users) (fun s a hs hr => kept_step hs hr) hstart hbs
  have hstep := settledCount_step hkept ha henforced
  rw [run_concat, ← settledCount_none, ← settledCount_none]
  exact hstep

/-! ### Two runs -/

/-- Two connected accounts of one user, the first active, and the workspace of the second, in which its
account has been observed. -/
def twoAccounts : Store where
  accounts := ((Table.empty.insert 1 { user := 7, isActive := true }).insert 2 { user := 7 })
  workspaces := Table.empty.insert 4
    { tradingAccount := 2, canonicalState := .connected, projAccountMatch := some true }

/-- One account at a time. -/
def standardUsers : Users where
  enforcementEnabled := fun _ => true
  entitlements := fun _ => {}

def confirmSecond : List Action := [.begin 0 (.confirm 7 4), .go 0 { now := 100 }]

/-- The second account is active beside the first. -/
theorem confirm_aboveLimit : ¬ ∀ users user store as, users.enforcementEnabled user = true →
    NeverRises users user (start store) as := by
  intro h
  have hrises := h standardUsers 7 twoAccounts confirmSecond rfl [.begin 0 (.confirm 7 4)]
    (.go 0 { now := 100 }) (List.prefix_refl _)
  exact absurd hrises (by decide)

def startSecond : List Action :=
  [.begin 0 (.setActive 2 true), .go 0 { now := 100 }, .go 0 { now := 100 }, .go 0 { now := 100 }]

theorem activeLimit_startSecond : NeverRises standardUsers 7 (start twoAccounts) startSecond := by
  refine activeLimit rfl twoAccounts ?_
  decide

end Activation
end HostedAccounts
end GuvFX
