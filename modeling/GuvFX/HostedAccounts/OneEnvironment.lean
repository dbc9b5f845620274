/-
# A broker server has one environment

Requests and declarations on hosted accounts take their steps in any order.
The rows of servers only grow, and what the last step of a call writes follows from the server that it
resolves.
-/
import GuvFX.HostedAccounts.ServerEnvironment

namespace GuvFX
namespace HostedAccounts
namespace ServerEnvironment

open Runs

/-! ### The server that is resolved -/

section

variable {σ : Setting} {servers servers' : Table BrokerServer} {name mismatch reason : String}
  {disagreement : BrokerServer → String} {environment : Environment} {source : EnvironmentSource}
  {isDemo strict : Bool} {look : LookUp} {pk : ℕ}

lemma getOrCreateServer_cases (servers : Table BrokerServer) (name : String) (environment : Environment)
    (source : EnvironmentSource) :
    (∃ row, (servers.first fun _ s => s.serverName = name) = some row ∧
      getOrCreateServer servers name environment source = (servers, row, false)) ∨
    ((servers.first fun _ s => s.serverName = name) = none ∧
      getOrCreateServer servers name environment source =
        (servers.insert servers.fresh ⟨name, environment, source⟩,
          (servers.fresh, ⟨name, environment, source⟩), true)) := by
  unfold getOrCreateServer
  cases hfirst : servers.first fun _ s => s.serverName = name with
  | some row => exact .inl ⟨row, rfl, rfl⟩
  | none => exact .inr ⟨rfl, rfl⟩

inductive Resolved (desired : Environment) (look : LookUp) (strict : Bool) (servers : Table BrokerServer) :
    Table BrokerServer → ℕ → Prop
  | found {pk : ℕ} {srv : BrokerServer} (hfound : look.found = some (pk, srv))
      (henv : srv.environment = desired) (hverified : ∀ env, look.verified = some env → env = desired) :
      Resolved desired look strict servers servers pk
  | exact {pk : ℕ} {srv : BrokerServer} (hget : servers.get pk = some srv) (hname : srv.serverName = look.name)
      (henv : srv.environment = desired) (hverified : ∀ env, look.verified = some env → env = desired) :
      Resolved desired look strict servers servers pk
  | created (source : EnvironmentSource) (hcreates : creates desired look strict servers = true)
      (hverified : ∀ env, look.verified = some env → env = desired) :
      Resolved desired look strict servers (servers.insert servers.fresh ⟨look.name, desired, source⟩)
        servers.fresh

lemma classificationError_iff (isDemo : Bool) (srv : BrokerServer) :
    classificationError isDemo (some srv) = true ↔ srv.environment ≠ desiredEnvironment isDemo := by
  simp [classificationError]

/-- A row of exactly the name, or a new one. -/
lemma resolved_getOrCreate {desired : Environment}
    (hfound : look.found = none) (hverified : look.verified = some desired ∨ (look.verified = none ∧ strict = false))
    (henv : (getOrCreateServer servers look.name desired source).2.1.2.environment = desired) :
    Resolved desired look strict servers (getOrCreateServer servers look.name desired source).1
      (getOrCreateServer servers look.name desired source).2.1.1 := by
  have hlisted : ∀ env, look.verified = some env → env = desired := by
    intro env henv
    rcases hverified with h | h
    · exact Option.some.inj (henv.symm.trans h)
    · rw [h.1] at henv
      cases henv
  rcases getOrCreateServer_cases servers look.name desired source with ⟨row, hrow, hout⟩ | ⟨hnone, hout⟩
  · rw [hout] at henv ⊢
    exact .exact (Table.get_of_first hrow) (of_decide_eq_true (Table.of_first hrow)) henv hlisted
  · rw [hout]
    refine .created source ?_ hlisted
    rcases hverified with h | h
    · simp [creates, hfound, hnone, h]
    · simp [creates, hfound, hnone, h.1, h.2]

lemma governedServer_spec (mismatch : String) (disagreement : BrokerServer → String) (isDemo : Bool)
    (look : LookUp) (strict : Bool) (servers : Table BrokerServer) :
    match governedServer mismatch disagreement isDemo look strict servers with
    | (servers', .ok pk) => Resolved (desiredEnvironment isDemo) look strict servers servers' pk
    | (servers', .error _) => servers' = servers := by
  unfold governedServer
  cases hverified : look.verified with
  | some verified =>
    dsimp only
    by_cases hdesired : verified = desiredEnvironment isDemo
    · rw [if_neg (by simpa using hdesired)]
      subst hdesired
      cases hfound : look.found with
      | some row =>
        dsimp only
        split_ifs with henv
        · rfl
        · refine .found hfound (by simpa using henv) fun env h => ?_
          exact (Option.some.inj (hverified.symm.trans h)).symm
      | none =>
        dsimp only
        split_ifs with henv
        · rcases getOrCreateServer_cases servers look.name (desiredEnvironment isDemo) .catalogue with
            ⟨row, -, hout⟩ | ⟨-, hout⟩
          · rw [hout]
          · rw [hout] at henv
            exact absurd rfl henv
        · exact resolved_getOrCreate hfound (.inl hverified) (by simpa using henv)
    · rw [if_pos hdesired]
  | none =>
    cases hfound : look.found with
    | some row =>
      dsimp only
      split_ifs with henv
      · rfl
      · rw [classificationError_iff, not_not] at henv
        exact .found hfound henv fun env h => by rw [hverified] at h; cases h
    | none =>
      dsimp only
      split_ifs with hstrict henv
      · rfl
      · rcases getOrCreateServer_cases servers look.name (desiredEnvironment isDemo) .inferred with
          ⟨row, -, hout⟩ | ⟨-, hout⟩
        · rw [hout]
        · rw [hout] at henv
          simp at henv
      · refine resolved_getOrCreate hfound (.inr ⟨hverified, by simpa using hstrict⟩) ?_
        rw [classificationError_iff] at henv
        rcases getOrCreateServer_cases servers look.name (desiredEnvironment isDemo) .inferred with
          ⟨row, -, hout⟩ | ⟨-, hout⟩
        · rw [hout] at henv ⊢
          simpa using henv
        · rw [hout]

end

/-! ### The rows of servers -/

def OneKey (σ : Setting) (servers : Table BrokerServer) : Prop :=
  ∀ pk pk' srv srv', servers.get pk = some srv → servers.get pk' = some srv' →
    serverNameKey σ srv.serverName = serverNameKey σ srv'.serverName → srv.environment = srv'.environment

/-- No row is lost or changed. -/
def Grows (servers servers' : Table BrokerServer) : Prop :=
  ∀ pk srv, servers.get pk = some srv → servers'.get pk = some srv

lemma grows_insert (servers : Table BrokerServer) (srv : BrokerServer) :
    Grows servers (servers.insert servers.fresh srv) :=
  fun _ _ h => Table.get_insert_of_get servers.fresh_not_mem h

def Suits (σ : Setting) (servers : Table BrokerServer) (environment : Environment) (pk : ℕ) : Prop :=
  ∃ srv, servers.get pk = some srv ∧ srv.environment = environment ∧
    ∀ env, resolveVerifiedEnvironment σ srv.serverName = some env → env = srv.environment

lemma Suits.grows {σ : Setting} {servers servers' : Table BrokerServer} {environment : Environment}
    {pk : ℕ} (h : Suits σ servers environment pk) (hgrows : Grows servers servers') :
    Suits σ servers' environment pk := by
  obtain ⟨srv, hget, hrest⟩ := h
  exact ⟨srv, hgrows pk srv hget, hrest⟩

def LookUp.Current (σ : Setting) (servers : Table BrokerServer) (look : LookUp) : Prop :=
  look.verified = resolveVerifiedEnvironment σ look.name ∧
    ∀ pk srv, look.found = some (pk, srv) → servers.get pk = some srv

/-- What `sameKey` says about a look-up. -/
structure Keyed (σ : Setting) (desired : Environment) (look : LookUp) (strict : Bool)
    (servers : Table BrokerServer) : Prop where
  found : ∀ pk srv, look.found = some (pk, srv) → srv.environment = desired →
    (∀ env, look.verified = some env → env = desired) →
    serverNameKey σ srv.serverName = serverNameKey σ look.name ∨
      ∀ env, resolveVerifiedEnvironment σ srv.serverName = some env → env = srv.environment
  created : creates desired look strict servers = true → ∀ pk srv, servers.get pk = some srv →
    serverNameKey σ srv.serverName = serverNameKey σ look.name → srv.environment = desired

section

variable {σ : Setting} {servers servers' : Table BrokerServer} {desired : Environment} {strict : Bool}
  {look : LookUp} {pk : ℕ}

lemma resolveVerifiedEnvironment_congr {name name' : String}
    (h : serverNameKey σ name = serverNameKey σ name') :
    resolveVerifiedEnvironment σ name = resolveVerifiedEnvironment σ name' := by
  unfold resolveVerifiedEnvironment
  rw [h]

lemma Resolved.grows (h : Resolved desired look strict servers servers' pk) : Grows servers servers' := by
  cases h with
  | found _ _ _ => exact fun _ _ h => h
  | exact _ _ _ _ => exact fun _ _ h => h
  | created _ _ _ => exact grows_insert _ _

lemma Resolved.oneKey (h : Resolved desired look strict servers servers' pk) (hone : OneKey σ servers)
    (hkeyed : Keyed σ desired look strict servers) : OneKey σ servers' := by
  cases h with
  | found _ _ _ => exact hone
  | exact _ _ _ _ => exact hone
  | created source hcreates _ =>
    have hnew := hkeyed.created hcreates
    intro j j' srv srv' hj hj' hkey
    rw [Table.get_insert _ servers.fresh_not_mem] at hj hj'
    split_ifs at hj hj'
    · obtain rfl := Option.some.inj hj
      obtain rfl := Option.some.inj hj'
      rfl
    · obtain rfl := Option.some.inj hj
      exact (hnew j' srv' hj' hkey.symm).symm
    · obtain rfl := Option.some.inj hj'
      exact hnew j srv hj hkey
    · exact hone j j' srv srv' hj hj' hkey

lemma Resolved.suits (h : Resolved desired look strict servers servers' pk)
    (hlook : look.Current σ servers) (hkeyed : Keyed σ desired look strict servers) :
    Suits σ servers' desired pk := by
  obtain ⟨hverified, hstored⟩ := hlook
  cases h with
  | @found _ srv hfound henv hlisted =>
    refine ⟨srv, hstored pk srv hfound, henv, ?_⟩
    rcases hkeyed.found pk srv hfound henv hlisted with hkey | hown
    · rw [resolveVerifiedEnvironment_congr hkey, ← hverified, henv]
      exact hlisted
    · exact hown
  | @exact _ srv hget hname henv hlisted =>
    refine ⟨srv, hget, henv, ?_⟩
    rw [hname, ← hverified, henv]
    exact hlisted
  | created source _ hlisted =>
    refine ⟨⟨look.name, desired, source⟩, ?_, rfl, ?_⟩
    · rw [Table.get_insert _ servers.fresh_not_mem, if_pos rfl]
    · rw [← hverified]
      exact hlisted

end

/-! ### Steps -/

/-- The environment for which a call resolves its server: that of the account it is about. -/
def Phase.isDemo : Phase → Option Bool
  | .looking isDemo | .saving isDemo _ => some isDemo
  | _ => none

structure Fits (σ : Setting) (s : State) (call : Call) : Prop where
  look : ∀ isDemo look, call.phase = .saving isDemo (some look) → look.Current σ s.servers
  request : ∀ user login server brokerName isDemo isDemo',
    call.kind = .request user login server brokerName isDemo → call.phase.isDemo = some isDemo' →
    isDemo' = isDemo
  bind : ∀ user workspace login server isDemo, call.kind = .bind user workspace login server →
    call.phase.isDemo = some isDemo →
    ∃ ws acct, s.store.workspace workspace = some (ws, acct) ∧ acct.isDemo = isDemo

/-- What a step keeps: no row of a server is changed, and a workspace keeps its account and this its
environment. -/
structure Extends (s s' : State) : Prop where
  servers : Grows s.servers s'.servers
  workspace : ∀ pk ws acct, s.store.workspace pk = some (ws, acct) →
    ∃ acct', s'.store.workspace pk = some (ws, acct') ∧ acct'.isDemo = acct.isDemo

section

variable {σ : Setting} {s s' : State} {k : ℕ} {call : Call} {gates : Gates} {a : Action}

lemma Extends.of_eq (hservers : s'.servers = s.servers) (hstore : s'.store = s.store) : Extends s s' := by
  refine ⟨?_, fun pk ws acct h => ⟨acct, ?_, rfl⟩⟩
  · rw [hservers]
    exact fun _ _ h => h
  · rw [hstore]
    exact h

lemma Fits.extend (h : Fits σ s call) (hext : Extends s s') : Fits σ s' call := by
  refine ⟨fun isDemo look hphase => ?_, h.request, fun user workspace login server isDemo hkind hphase => ?_⟩
  · obtain ⟨hverified, hfound⟩ := h.look isDemo look hphase
    exact ⟨hverified, fun pk srv hrow => hext.servers pk srv (hfound pk srv hrow)⟩
  · obtain ⟨ws, acct, hrow, hdemo⟩ := h.bind user workspace login server isDemo hkind hphase
    obtain ⟨acct', hrow', hdemo'⟩ := hext.workspace _ _ _ hrow
    exact ⟨ws, acct', hrow', hdemo'.trans hdemo⟩

def Agree (σ : Setting) (store : Store) (servers : Table BrokerServer) : Prop :=
  ∀ pk a server, store.accounts.get pk = some a → a.brokerServer = some server →
    Suits σ servers (desiredEnvironment a.isDemo) server

lemma resolveServer_spec (hfits : Fits σ s call) {isDemo : Bool} {look : Option LookUp}
    (hphase : call.phase = .saving isDemo look) (hone : OneKey σ s.servers)
    (hkeyed : ∀ l, look = some l →
      Keyed σ (desiredEnvironment isDemo) l gates.catalogueStrict s.servers) :
    Grows s.servers (resolveServer call.kind isDemo look gates.catalogueStrict s.servers).1 ∧
      OneKey σ (resolveServer call.kind isDemo look gates.catalogueStrict s.servers).1 ∧
      ∀ pk, (resolveServer call.kind isDemo look gates.catalogueStrict s.servers).2 = .ok (some pk) →
        Suits σ (resolveServer call.kind isDemo look gates.catalogueStrict s.servers).1
          (desiredEnvironment isDemo) pk := by
  cases look with
  | none => exact ⟨fun _ _ h => h, hone, fun pk h => by cases h⟩
  | some look =>
    have hlook := hfits.look isDemo look hphase
    have hkey := hkeyed look rfl
    have key : ∀ out : Table BrokerServer × Except String ℕ,
        (match out with
          | (servers', .ok pk) =>
            Resolved (desiredEnvironment isDemo) look gates.catalogueStrict s.servers servers' pk
          | (servers', .error _) => servers' = s.servers) →
        Grows s.servers out.1 ∧ OneKey σ out.1 ∧ ∀ pk, out.2.map some = .ok (some pk) →
          Suits σ out.1 (desiredEnvironment isDemo) pk := by
      rintro ⟨servers', server⟩ hout
      cases server with
      | error reason =>
        obtain rfl : servers' = s.servers := hout
        exact ⟨fun _ _ h => h, hone, fun pk h => by cases h⟩
      | ok server =>
        have hres : Resolved (desiredEnvironment isDemo) look gates.catalogueStrict s.servers servers'
          server := hout
        refine ⟨hres.grows, hres.oneKey hone hkey, fun pk h => ?_⟩
        obtain rfl : server = pk := Option.some.inj (Except.ok.inj h)
        exact hres.suits hlook hkey
    cases hkind : call.kind with
    | request user login server brokerName isDemo' => exact key _ (governedServer_spec ..)
    | bind user workspace login server => exact key _ (governedServer_spec ..)

lemma Agree.grows {store : Store} {servers servers' : Table BrokerServer} (h : Agree σ store servers)
    (hgrows : Grows servers servers') : Agree σ store servers' :=
  fun pk a server ha hserver => (h pk a server ha hserver).grows hgrows

/-- What the rows satisfy at every moment. -/
structure Sound (σ : Setting) (s : State) : Prop where
  key : OneKey σ s.servers
  agree : Agree σ s.store s.servers

/-- What is known of a call that has come to its end. -/
lemma Fits.done (kind : Kind) (result : Result) : Fits σ s { kind := kind, phase := .done result } :=
  ⟨fun _ _ h => (by cases h), fun _ _ _ _ _ _ _ h => (by cases h), fun _ _ _ _ _ _ h => (by cases h)⟩

/-- What is known of a call that has not begun. -/
lemma Fits.opening (kind : Kind) : Fits σ s { kind := kind, phase := .opening } :=
  ⟨fun _ _ h => (by cases h), fun _ _ _ _ _ _ _ h => (by cases h), fun _ _ _ _ _ _ h => (by cases h)⟩

lemma fits_openCall (σ : Setting) (k : ℕ) (s : State) (gates : Gates) (kind : Kind) :
    (openCall σ k s gates kind).1.store = s.store ∧ (openCall σ k s gates kind).1.servers = s.servers ∧
      Fits σ (openCall σ k s gates kind).1
        { kind := kind, phase := (openCall σ k s gates kind).2 } := by
  cases kind with
  | request user expectedLogin expectedServer brokerName isDemo =>
    dsimp only [openCall]
    split
    · exact ⟨rfl, rfl, .done ..⟩
    split_ifs
    · exact ⟨rfl, rfl, .done ..⟩
    · exact ⟨rfl, rfl, .done ..⟩
    · exact ⟨rfl, rfl, .done ..⟩
    · exact ⟨rfl, rfl, .opening _⟩
    · split
      · exact ⟨rfl, rfl, .done ..⟩
      · refine ⟨rfl, rfl, fun _ _ h => (by cases h), fun user' l srv b d d' hkind hd => ?_,
          fun _ _ _ _ _ h => (by cases h)⟩
        obtain ⟨-, -, -, -, rfl⟩ := Kind.request.inj hkind
        exact (Option.some.inj hd).symm
  | bind user workspace expectedLogin expectedServer =>
    dsimp only [openCall]
    split_ifs
    · exact ⟨rfl, rfl, .done ..⟩
    · exact ⟨rfl, rfl, .done ..⟩
    · exact ⟨rfl, rfl, .opening _⟩
    · split
      · exact ⟨rfl, rfl, .done ..⟩
      · next ws acct hrow =>
        split
        · exact ⟨rfl, rfl, .done ..⟩
        · refine ⟨rfl, rfl, fun _ _ h => (by cases h), fun _ _ _ _ _ _ h => (by cases h),
            fun user' workspace' l srv d hkind hd => ?_⟩
          obtain ⟨-, rfl, -, -⟩ := Kind.bind.inj hkind
          exact ⟨ws, acct, hrow, Option.some.inj hd⟩

lemma agree_insert {store : Store} {servers : Table BrokerServer} {account : TradingAccount}
    (workspaces : Table HostedMt5Workspace) (hagree : Agree σ store servers)
    (hnew : ∀ server, account.brokerServer = some server →
      Suits σ servers (desiredEnvironment account.isDemo) server) :
    Agree σ ⟨store.accounts.insert store.accounts.fresh account, workspaces⟩ servers := by
  intro pk a server ha hserver
  have ha' : (store.accounts.insert store.accounts.fresh account).get pk = some a := ha
  rw [Table.get_insert _ store.accounts.fresh_not_mem] at ha'
  split_ifs at ha'
  · obtain rfl := Option.some.inj ha'
    exact hnew server hserver
  · exact hagree pk a server ha' hserver

lemma saveCall_spec (hfits : Fits σ s call) {isDemo : Bool} {look : Option LookUp}
    (hphase : call.phase = .saving isDemo look) (hsound : Sound σ s)
    (hkeyed : ∀ l, look = some l →
      Keyed σ (desiredEnvironment isDemo) l gates.catalogueStrict s.servers) :
    Extends s (saveCall k s gates call.kind isDemo look).1 ∧
      Sound σ (saveCall k s gates call.kind isDemo look).1 ∧
      ∃ result, (saveCall k s gates call.kind isDemo look).2 = .done result := by
  obtain ⟨hgrows, hkey, hsuits⟩ := resolveServer_spec hfits hphase hsound.key hkeyed
  have hagree := hsound.agree.grows hgrows
  have hdemo : call.phase.isDemo = some isDemo := by
    rw [hphase]
    rfl
  unfold saveCall
  dsimp only
  generalize resolveServer call.kind isDemo look gates.catalogueStrict s.servers = out at *
  split
  · exact ⟨⟨hgrows, fun _ _ acct h => ⟨acct, h, rfl⟩⟩, ⟨hkey, hagree⟩, _, rfl⟩
  · next server hserver =>
    split
    · next user expectedLogin expectedServer brokerName isDemo' hkind =>
      obtain rfl := hfits.request _ _ _ _ _ _ hkind hdemo
      split_ifs
      · exact ⟨.of_eq rfl rfl, ⟨hsound.key, hsound.agree⟩, _, rfl⟩
      · refine ⟨⟨hgrows, fun pk ws acct h => ?_⟩, ⟨hkey, agree_insert _ hagree fun server' h => ?_⟩, _, rfl⟩
        · obtain ⟨hws, hacct⟩ := Store.workspace_eq_some.mp h
          refine ⟨acct, Store.workspace_eq_some.mpr ⟨?_, ?_⟩, rfl⟩
          · exact Table.get_insert_of_get s.store.workspaces.fresh_not_mem hws
          · exact Table.get_insert_of_get s.store.accounts.fresh_not_mem hacct
        · obtain rfl : server = some server' := h
          exact hsuits server' hserver
    · next user workspace expectedLogin expectedServer hkind =>
      obtain ⟨ws, acct, hrow, hacctDemo⟩ := hfits.bind _ _ _ _ _ hkind hdemo
      obtain ⟨hws, hacct⟩ := Store.workspace_eq_some.mp hrow
      rw [hrow]
      dsimp only
      split_ifs
      · exact ⟨⟨hgrows, fun _ _ acct h => ⟨acct, h, rfl⟩⟩, ⟨hkey, hagree⟩, _, rfl⟩
      · refine ⟨⟨hgrows, fun pk ws' acct' h => ?_⟩, ⟨hkey, fun pk a server' ha hs => ?_⟩, _, rfl⟩
        · obtain ⟨hws', hacct'⟩ := Store.workspace_eq_some.mp h
          by_cases hpk : ws'.tradingAccount = ws.tradingAccount
          · refine ⟨bindIdentity (Text.strip expectedLogin) server acct', ?_, rfl⟩
            refine Store.workspace_eq_some.mpr ⟨hws', ?_⟩
            rw [Store.accounts_updateAccount, Table.get_modify, if_pos hpk, ← hpk, hacct']
            rfl
          · refine ⟨acct', Store.workspace_eq_some.mpr ⟨hws', ?_⟩, rfl⟩
            rw [Store.accounts_updateAccount, Table.get_modify, if_neg hpk, hacct']
        · rw [Store.accounts_updateAccount, Table.get_modify] at ha
          split_ifs at ha
          · rw [hacct] at ha
            obtain rfl := Option.some.inj ha
            obtain rfl : server = some server' := hs
            show Suits σ out.1 (desiredEnvironment acct.isDemo) server'
            rw [hacctDemo]
            exact hsuits server' hserver
          · exact hagree pk a server' ha hs

lemma callStep_spec (hcall : s.calls k = some call) (hfits : Fits σ s call) (hsound : Sound σ s)
    (hkey : sameKey σ s (.go k gates) = true) :
    Extends s (callStep σ k s call gates).1 ∧ Sound σ (callStep σ k s call gates).1 ∧
      Fits σ (callStep σ k s call gates).1 { call with phase := (callStep σ k s call gates).2 } := by
  obtain ⟨kind, phase⟩ := call
  cases phase with
  | opening =>
    obtain ⟨hstore, hservers, hnew⟩ := fits_openCall σ k s gates kind
    refine ⟨.of_eq hservers hstore, ⟨?_, ?_⟩, hnew⟩
    · show OneKey σ (openCall σ k s gates kind).1.servers
      rw [hservers]
      exact hsound.key
    · show Agree σ (openCall σ k s gates kind).1.store (openCall σ k s gates kind).1.servers
      rw [hservers, hstore]
      exact hsound.agree
  | looking isDemo =>
    refine ⟨.of_eq rfl rfl, hsound, fun isDemo' look hphase => ?_, fun user l srv b d d' hkind hd => ?_,
      fun user w l srv d hkind hd => ?_⟩
    · obtain ⟨-, hlook⟩ := Phase.saving.inj hphase
      split_ifs at hlook
      obtain rfl := Option.some.inj hlook
      refine ⟨rfl, fun pk srv hfound => ?_⟩
      exact (Table.mem_filter.mp (List.mem_of_getElem? hfound)).1
    · exact hfits.request user l srv b d d' hkind hd
    · exact hfits.bind user w l srv d hkind hd
  | saving isDemo look =>
    have hkeyed : ∀ l, look = some l →
        Keyed σ (desiredEnvironment isDemo) l gates.catalogueStrict s.servers := by
      rintro l rfl
      simp only [sameKey, hcall, Bool.and_eq_true] at hkey
      refine ⟨fun pk srv hfound henv hverified => ?_, fun hcreates pk srv hget hname => ?_⟩
      · have h := hkey.1
        rw [hfound] at h
        have hnot : (l.verified.any fun env => env ≠ desiredEnvironment isDemo) = false := by
          cases hv : l.verified with
          | none => rfl
          | some env => simp [hverified env hv]
        simp only [Option.all_some, henv, ne_eq, not_true, decide_false, Bool.false_or,
          Bool.or_eq_true, decide_eq_true_eq, Bool.not_eq_true'] at h
        rcases h with (h | h) | h
        · simp only [ne_eq] at hnot
          rw [hnot] at h
          cases h
        · exact .inl h
        · refine .inr fun env hlisted => ?_
          rw [hlisted] at h
          simpa [henv] using h
      · have h := hkey.2
        rw [hcreates] at h
        have hrow : ∀ j row, (j, row) ∈ s.servers.rows → row.environment = desiredEnvironment isDemo ∨
            ¬ serverNameKey σ row.serverName = serverNameKey σ l.name := by simpa using h
        exact (hrow pk srv (Table.mem_rows_of_get hget)).resolve_right (not_not.mpr hname)
    obtain ⟨hext, hsound', result, hdone⟩ := saveCall_spec (k := k) hfits rfl hsound hkeyed
    refine ⟨hext, hsound', ?_⟩
    show Fits σ _ { kind := kind, phase := (saveCall k s gates kind isDemo look).2 }
    rw [hdone]
    exact .done ..
  | done result => exact ⟨.of_eq rfl rfl, hsound, .done ..⟩

structure Kept (σ : Setting) (s : State) : Prop extends Sound σ s where
  fits : ∀ k call, s.calls k = some call → Fits σ s call

lemma kept_step (h : Kept σ s) (hkey : sameKey σ s a = true) :
    Kept σ (step σ s a) ∧ Extends s (step σ s a) := by
  cases a with
  | begin k kind =>
    dsimp only [step]
    split
    · exact ⟨h, .of_eq rfl rfl⟩
    · refine ⟨⟨⟨h.key, h.agree⟩, fun k' call' hk' => ?_⟩, .of_eq rfl rfl⟩
      dsimp only at hk'
      by_cases hk : k' = k
      · subst hk
        rw [Function.update_self] at hk'
        obtain rfl := Option.some.inj hk'
        exact .opening kind
      · rw [Function.update_of_ne hk] at hk'
        exact (h.fits k' call' hk').extend (.of_eq rfl rfl)
  | go k gates =>
    dsimp only [step]
    split
    · exact ⟨h, .of_eq rfl rfl⟩
    · next call hcall =>
      obtain ⟨hext, hsound, hfits⟩ := callStep_spec hcall (h.fits k call hcall) h.toSound hkey
      refine ⟨⟨⟨hsound.key, hsound.agree⟩, fun k' call' hk' => ?_⟩, ⟨hext.servers, hext.workspace⟩⟩
      dsimp only at hk'
      by_cases hk : k' = k
      · subst hk
        rw [Function.update_self] at hk'
        obtain rfl := Option.some.inj hk'
        exact hfits.extend (.of_eq rfl rfl)
      · rw [Function.update_of_ne hk] at hk'
        exact (h.fits k' call' hk').extend ⟨hext.servers, hext.workspace⟩
  | die k =>
    refine ⟨⟨⟨h.key, h.agree⟩, fun k' call' hk' => ?_⟩, .of_eq rfl rfl⟩
    have hold : Function.update s.calls k none k' = some call' := hk'
    by_cases hk : k' = k
    · subst hk
      rw [Function.update_self] at hold
      cases hold
    · rw [Function.update_of_ne hk] at hold
      exact (h.fits k' call' hold).extend (.of_eq rfl rfl)

end

/-- As long as the names that a step takes for one have one key, a broker server has one environment: of
the rows stored at any moment, at every later one. -/
theorem oneEnvironment {σ : Setting} {store : Store} {servers : Table BrokerServer} {as bs : List Action}
    (hstart : OneEnvironment σ servers (start store servers))
    (h : StepsMeet (step σ) (fun s a => sameKey σ s a = true) (start store servers) (as ++ bs)) :
    OneEnvironment σ (run (step σ) (start store servers) as).servers
      (run (step σ) (start store servers) (as ++ bs)) := by
  obtain ⟨has, hbs⟩ := stepsMeet_append.mp h
  have hkept₀ : Kept σ (start store servers) :=
    ⟨⟨hstart.key, hstart.account⟩, fun _ _ hcall => (by cases hcall)⟩
  have hkept := run_invariant_of_meets (P := Kept σ) (fun s a hs hk => (kept_step hs hk).1) hkept₀ has
  rw [run_append]
  generalize run (step σ) (start store servers) as = s at hkept hbs ⊢
  -- from there the rows only grow
  obtain ⟨hkept', hgrows⟩ := run_invariant_of_meets
    (P := fun s' => Kept σ s' ∧ Grows s.servers s'.servers)
    (fun s' a hs hk => ⟨(kept_step hs.1 hk).1,
      fun pk srv hget => (kept_step hs.1 hk).2.servers pk srv (hs.2 pk srv hget)⟩)
    ⟨hkept, fun _ _ hget => hget⟩ hbs
  exact ⟨hkept'.key, fun pk srv hget => ⟨srv, hgrows pk srv hget, rfl⟩, hkept'.agree⟩

/-! ### Two spellings -/

def plainSetting : Setting where
  casefold := Text.casefold
  upper := Text.upper
  catalogue := []

def emptyStore : Store := ⟨.empty, .empty⟩

def twoRequests (first second : String) (isDemo : Bool) : List Action :=
  [.begin 0 (.request 1 "100" first "" true), .begin 1 (.request 2 "200" second "" isDemo)]

def requestSteps : List Action :=
  [.go 0 {}, .go 0 {}, .go 0 {}, .go 1 { liveOnboardingEnabled := true }, .go 1 {}, .go 1 {}]

lemma oneEnvironment_empty (σ : Setting) : OneEnvironment σ .empty (start emptyStore .empty) := by
  refine ⟨fun _ _ _ _ h => ?_, fun _ _ h => ?_, fun _ _ _ h => ?_⟩
  · cases h
  · cases h
  · cases h

/-- A blank more makes a row of its own, with an environment of its own. -/
theorem twoEnvironments : ¬ ∀ σ store servers as bs, OneEnvironment σ servers (start store servers) →
    OneEnvironment σ (run (step σ) (start store servers) as).servers
      (run (step σ) (start store servers) (as ++ bs)) := by
  intro h
  have hone := h plainSetting emptyStore .empty (twoRequests "Foo Live" "Foo  Live" false) requestSteps
    (oneEnvironment_empty plainSetting)
  have hkey := hone.key 1 2 ⟨"Foo Live", .demo, .inferred⟩ ⟨"Foo  Live", .live, .inferred⟩
    (by decide +kernel) (by decide +kernel) (by decide +kernel)
  cases hkey

/-- With another case the row is found. -/
theorem oneEnvironment_twoRequests :
    OneEnvironment plainSetting
      (run (step plainSetting) (start emptyStore .empty) (twoRequests "Foo Live" "foo live" true)).servers
      (run (step plainSetting) (start emptyStore .empty)
        (twoRequests "Foo Live" "foo live" true ++ requestSteps)) := by
  refine oneEnvironment (oneEnvironment_empty plainSetting) ?_
  decide +kernel

end ServerEnvironment
end HostedAccounts
end GuvFX
