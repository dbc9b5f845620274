/-
# The history of a workspace agrees with its state

Whatever calls read, decide and write in whatever order, the rows of a workspace are the way from
`PROVISIONING` to its state, numbered from one to its decision version; every move of the state is an
edge of the graph; and the cached projection says that the workspace is ready exactly when its state
does, and then shows every condition for it.

The decision may have been made for a state that is gone when it is written.  What carries the
projection through is that a decision for any state is ready only on the conditions, and that the
writer checks the move from the state it has locked.
-/
import GuvFX.HostedWorkspace.StateWriter

namespace GuvFX
namespace HostedWorkspace

open Runs
open WorkspaceLifecycleState

/-! ### Keys -/

lemma toDigits_length {n : ℕ} (h : n ≤ maxVersion) : (Nat.toDigits 10 n).length ≤ 19 := by
  refine (Nat.length_toDigits_le_iff (by omega) (by omega)).mpr ?_
  unfold maxVersion at h
  omega

lemma colon_not_mem_toDigits (n : ℕ) : ':' ∉ Nat.toDigits 10 n := by
  intro hmem
  have hdigit := Nat.isDigit_of_mem_toDigits (b := 10) (by omega) (by omega) hmem
  exact absurd hdigit (by decide)

lemma takeWhile_toDigits (n : ℕ) (rest : List Char) :
    (Nat.toDigits 10 n ++ ':' :: rest).takeWhile (· ≠ ':') = Nat.toDigits 10 n := by
  rw [List.takeWhile_append_of_pos]
  · simp
  · intro c hc
    rw [decide_eq_true_eq]
    rintro rfl
    exact colon_not_mem_toDigits n hc

variable {version pk : ℕ}

lemma toList_dedupeKey (uuid : WorkspaceUuid) (h : version ≤ maxVersion)
    (target : WorkspaceLifecycleState) (reason : WorkspaceReason) :
    ∃ rest, (dedupeKey uuid version target reason).toList =
      uuid.val.toList ++ ':' :: (Nat.toDigits 10 version ++ ':' :: rest) := by
  have hlen := toDigits_length h
  have huuid : uuid.val.toList.length = 36 := by
    rw [String.length_toList]
    exact uuid.property
  have hdef : (dedupeKey uuid version target reason).toList =
      (uuid.val.toList ++ ':' :: (Nat.toDigits 10 version ++
        ':' :: (target.value.toList ++ ':' :: reason.value.toList))).take 200 := by
    have hrepr : toString version = version.repr := rfl
    simp only [dedupeKey, Text.clip, hrepr, String.toList_ofList, String.toList_append,
      Nat.toList_repr, List.append_assoc]
    rfl
  obtain ⟨m, hm⟩ := Nat.exists_eq_add_of_lt
    (show 0 < 163 - (Nat.toDigits 10 version).length by omega)
  rw [Nat.zero_add] at hm
  refine ⟨(target.value.toList ++ ':' :: reason.value.toList).take m, ?_⟩
  rw [hdef, List.take_append, huuid, List.take_of_length_le (by omega)]
  refine congrArg (uuid.val.toList ++ ·) ?_
  rw [List.take_succ_cons, List.take_append, List.take_of_length_le (by omega), hm,
    List.take_succ_cons]

lemma dedupeKey_inj {uuid uuid' : WorkspaceUuid} {version' : ℕ} (hv : version ≤ maxVersion)
    (hv' : version' ≤ maxVersion) {target target' : WorkspaceLifecycleState}
    {reason reason' : WorkspaceReason}
    (h : dedupeKey uuid version target reason = dedupeKey uuid' version' target' reason') :
    uuid = uuid' ∧ version = version' := by
  obtain ⟨rest, hl⟩ := toList_dedupeKey uuid hv target reason
  obtain ⟨rest', hl'⟩ := toList_dedupeKey uuid' hv' target' reason'
  have hlist := (hl.symm.trans (congrArg String.toList h)).trans hl'
  have hlen : uuid.val.toList.length = uuid'.val.toList.length := by
    rw [String.length_toList, String.length_toList, uuid.property, uuid'.property]
  obtain ⟨huuid, htail⟩ := List.append_inj hlist hlen
  have hdigits : Nat.toDigits 10 version = Nat.toDigits 10 version' := by
    rw [← takeWhile_toDigits version rest, (List.cons.inj htail).2, takeWhile_toDigits]
  refine ⟨Subtype.ext (String.toList_injective huuid), ?_⟩
  calc version = Nat.ofDigitChars 10 (Nat.toDigits 10 version) 0 :=
        Nat.ofDigitChars_ten_toDigits.symm
    _ = Nat.ofDigitChars 10 (Nat.toDigits 10 version') 0 := by rw [hdigits]
    _ = version' := Nat.ofDigitChars_ten_toDigits

/-! ### What the writer does -/

/-- What an accepted decision does to the row of the workspace. -/
structure Saved (locked saved : HostedMt5Workspace) (version : ℕ) (obs : WorkspaceObservation)
    (decision : WorkspaceDecision) : Prop where
  uuid : saved.workspaceUuid = locked.workspaceUuid
  version : saved.observationVersion = version
  state : saved.canonicalState = decision.nextState
  ready : saved.projExecutionReady = some decision.executionReady
  processRunning : saved.projProcessRunning = some obs.processRunning
  ipcAvailable : saved.projIpcAvailable = some obs.ipcAvailable
  connected : saved.projConnected = some obs.connected
  accountMatch : saved.projAccountMatch = some obs.accountMatch
  tradeAllowed : saved.projTradeAllowed = some obs.tradeAllowed

structure Records (pk : ℕ) (locked : HostedMt5Workspace) (version : ℕ) (decision : WorkspaceDecision)
    (row : WorkspaceTransition) : Prop where
  workspace : row.workspace = pk
  fromState : row.fromState = locked.canonicalState
  toState : row.toState = decision.nextState
  observationVersion : row.observationVersion = version
  decisionVersion : row.decisionVersion = locked.decisionVersion + 1
  stateChanged : row.stateChanged = decide (row.toState ≠ row.fromState)
  telemetryEvent : row.telemetryEvent.isSome → row.stateChanged = true
  key : row.dedupeKey = dedupeKey locked.workspaceUuid version row.toState row.reason

def EventsAfter (db db' : Database) (row : WorkspaceTransition) : Prop :=
  db'.events = db.events ∨
    ∃ event : OperationalEvent, event.dedupKey = row.dedupeKey ∧ row.telemetryEvent.isSome ∧
      db.transitions.get row.dedupeKey = none ∧ db'.events = db.events ++ [event]

lemma recordEvent_cases (recorder : Bool) (events : List OperationalEvent) (event : OperationalEvent) :
    (recordEvent recorder events event).1 = events ∨
      (recordEvent recorder events event).1 = events ++ [event] := by
  unfold recordEvent
  split_ifs
  · exact .inl rfl
  · exact .inl rfl
  · exact .inr rfl

lemma applyDecision_cases (db : Database) (pk : ℕ) (locked : HostedMt5Workspace) (version : ℕ)
    (obs : WorkspaceObservation) (decision : WorkspaceDecision) (corr src : String) (now : ℕ)
    (recorder : Bool) :
    ∃ saved, Saved locked saved version obs decision ∧
      (applyDecision db pk locked version obs decision corr src now recorder).1.workspaces =
        db.workspaces.modify pk (fun _ => saved) ∧
      ((∃ row, Records pk locked version decision row ∧
          saved.decisionVersion = locked.decisionVersion + 1 ∧
          (applyDecision db pk locked version obs decision corr src now recorder).1.transitions =
            db.transitions.insertOrIgnore row ∧
          EventsAfter db
            (applyDecision db pk locked version obs decision corr src now recorder).1 row) ∨
        (decision.nextState = locked.canonicalState ∧
          saved.decisionVersion = locked.decisionVersion ∧
          (applyDecision db pk locked version obs decision corr src now recorder).1.transitions =
            db.transitions ∧
          (applyDecision db pk locked version obs decision corr src now recorder).1.events =
            db.events)) := by
  unfold applyDecision
  dsimp only
  split
  · refine ⟨_, ?_, rfl, .inl ⟨_, ?_, rfl, rfl, ?_⟩⟩
    · exact ⟨rfl, rfl, rfl, rfl, rfl, rfl, rfl, rfl, rfl⟩
    · refine ⟨rfl, rfl, rfl, rfl, rfl, rfl, ?_, rfl⟩
      intro h
      by_contra hno
      rw [if_neg hno] at h
      cases h
    · unfold EventsAfter
      dsimp only
      generalize (if decide (decision.nextState ≠ locked.canonicalState) = true then
        decision.telemetryEvent else none) = telemetry
      cases telemetry with
      | none => exact .inl rfl
      | some event =>
        dsimp only
        cases hget : db.transitions.get (dedupeKey locked.workspaceUuid version decision.nextState
            decision.reason) with
        | some row => exact .inl rfl
        | none =>
          rcases recordEvent_cases recorder db.events _ with h | h
          · exact .inl h
          · exact .inr ⟨_, rfl, rfl, rfl, h⟩
  · next hno =>
    simp only [ne_eq, Bool.or_eq_true, decide_eq_true_eq, not_or, not_not] at hno
    refine ⟨_, ?_, rfl, .inr ⟨hno.1.1, rfl, rfl, rfl⟩⟩
    exact ⟨rfl, rfl, hno.1.1.symm, rfl, rfl, rfl, rfl, rfl, rfl⟩

def PersistResult.Accepted (r : PersistResult) : Prop :=
  r.status = .applied ∨ r.status = .idempotent

lemma applyDecision_result (db : Database) (pk : ℕ) (locked : HostedMt5Workspace) (version : ℕ)
    (obs : WorkspaceObservation) (decision : WorkspaceDecision) (corr src : String) (now : ℕ)
    (recorder : Bool) :
    (applyDecision db pk locked version obs decision corr src now recorder).2.Accepted ∧
    (applyDecision db pk locked version obs decision corr src now recorder).2.observationVersion =
      version := by
  unfold applyDecision
  dsimp only
  split
  · exact ⟨.inl rfl, rfl⟩
  · exact ⟨.inr rfl, rfl⟩

lemma coerceVersion_le {v : Version} {n : ℕ} (h : coerceVersion v = some n) : n ≤ maxVersion := by
  cases v with
  | int i =>
    dsimp only [coerceVersion] at h
    split_ifs at h with hi
    cases h
    omega
  | bool b => cases h
  | other => cases h

variable {db db' : Database}

lemma persist_cases {workspace : Instance} {obs : WorkspaceObservation}
    {decision : WorkspaceDecision} {v : Version} {corr source : String} {now : ℕ}
    {recorder : Bool} {r : PersistResult}
    (h : persistWorkspaceDecision db workspace obs decision v corr source now recorder =
      some (db', r)) :
    (db' = db ∧ ¬ r.Accepted) ∨
      ∃ pk locked version corr' src, workspace.pk = some pk ∧ db.workspaces.get pk = some locked ∧
        locked.observationVersion < version ∧ version ≤ maxVersion ∧
        LegalMove locked.canonicalState decision.nextState ∧
        (db', r) = applyDecision db pk locked version obs decision corr' src now recorder := by
  have hrefused : ∀ {status row detail}, status ≠ .applied → status ≠ .idempotent →
      ¬ (refused status row detail).Accepted := by
    intro status row detail h1 h2 hacc
    exact hacc.elim h1 h2
  unfold persistWorkspaceDecision at h
  split at h
  · cases h
    exact .inl ⟨rfl, hrefused (by decide) (by decide)⟩
  · cases h
    exact .inl ⟨rfl, hrefused (by decide) (by decide)⟩
  · next version pk hversion hpk =>
    dsimp only at h
    cases hget : db.workspaces.get pk with
    | none =>
      rw [hget] at h
      cases h
    | some locked =>
      rw [hget] at h
      dsimp only at h
      by_cases hstale : version ≤ locked.observationVersion
      · rw [if_pos hstale] at h
        cases h
        exact .inl ⟨rfl, hrefused (by decide) (by decide)⟩
      rw [if_neg hstale] at h
      split at h
      · cases h
        exact .inl ⟨rfl, hrefused (by decide) (by decide)⟩
      · next hlegal =>
        right
        refine ⟨pk, locked, version, _, _, hpk, hget, Nat.lt_of_not_le hstale,
          coerceVersion_le hversion, ?_, (Option.some.inj h).symm⟩
        rw [not_and_or, not_not, Bool.not_eq_false] at hlegal
        rcases hlegal with hsame | hlegal
        · exact .inl hsame
        · exact legalMove_iff.mpr hlegal

/-! ### The invariant -/

structure WorkspaceKept (db : Database) (pk : ℕ) (ws : HostedMt5Workspace) : Prop where
  journal : Journal (·.decisionVersion) (·.fromState) (·.toState) provisioning ws.canonicalState
    (db.transitionsOf pk)
  length : (db.transitionsOf pk).length = ws.decisionVersion
  moves : ∀ row ∈ db.transitionsOf pk, LegalMove row.fromState row.toState ∧
    row.stateChanged = decide (row.toState ≠ row.fromState)
  versions : (db.transitionsOf pk).Pairwise fun row row' =>
    row.observationVersion < row'.observationVersion
  keys : ∀ row ∈ db.transitionsOf pk, row.observationVersion ≤ ws.observationVersion ∧
    row.dedupeKey = dedupeKey ws.workspaceUuid row.observationVersion row.toState row.reason
  bound : ws.observationVersion ≤ maxVersion
  ready : ws.projExecutionReady = some true ↔ ws.canonicalState = executionReady
  conditions : ws.canonicalState = executionReady → ws.projProcessRunning = some true ∧
    ws.projIpcAvailable = some true ∧ ws.projConnected = some true ∧
    ws.projAccountMatch = some true ∧ ws.projTradeAllowed = some true

/-- The invariant of the writer. -/
structure Kept (db : Database) : Prop where
  workspace : ∀ {pk ws}, db.workspaces.get pk = some ws → WorkspaceKept db pk ws
  uuids : ∀ {pk pk' ws ws'}, db.workspaces.get pk = some ws → db.workspaces.get pk' = some ws' →
    ws.workspaceUuid = ws'.workspaceUuid → pk = pk'
  owned : ∀ row ∈ db.transitions.rows, ∃ ws, db.workspaces.get row.workspace = some ws
  events : ∀ event ∈ db.events, ∃ row ∈ db.transitions.rows, row.dedupeKey = event.dedupKey ∧
    row.stateChanged = true
  once : (db.events.map OperationalEvent.dedupKey).Nodup

lemma mem_transitionsOf {row : WorkspaceTransition} :
    row ∈ db.transitionsOf pk ↔ row ∈ db.transitions.rows ∧ row.workspace = pk := by
  simp [Database.transitionsOf]

variable {locked saved : HostedMt5Workspace}

lemma Kept.fresh_key (hk : Kept db) (hget : db.workspaces.get pk = some locked)
    (hnew : locked.observationVersion < version) (hmax : version ≤ maxVersion)
    (target : WorkspaceLifecycleState) (reason : WorkspaceReason) :
    db.transitions.get (dedupeKey locked.workspaceUuid version target reason) = none := by
  refine Rows.get_eq_none_iff.mpr fun row hrow hkey => ?_
  obtain ⟨ws, hws⟩ := hk.owned row hrow
  have hkept := hk.workspace hws
  obtain ⟨hle, hrowKey⟩ := hkept.keys row (mem_transitionsOf.mpr ⟨hrow, rfl⟩)
  obtain ⟨huuid, hver⟩ := dedupeKey_inj (hle.trans hkept.bound) hmax (hrowKey.symm.trans hkey)
  have hpk : row.workspace = pk := hk.uuids hws hget huuid
  rw [hpk, hget] at hws
  cases hws
  omega

lemma transitionsOf_concat {row : WorkspaceTransition}
    (h : db'.transitions.rows = db.transitions.rows ++ [row]) (pk : ℕ) :
    db'.transitionsOf pk =
      if row.workspace = pk then db.transitionsOf pk ++ [row] else db.transitionsOf pk := by
  unfold Database.transitionsOf
  rw [h, List.filter_append]
  by_cases hpk : row.workspace = pk
  · simp [hpk]
  · simp [hpk]

lemma Saved.projection {obs : WorkspaceObservation}
    (hs : Saved locked saved version obs (deriveWorkspaceDecision obs)) :
    (saved.projExecutionReady = some true ↔ saved.canonicalState = executionReady) ∧
    (saved.canonicalState = executionReady → saved.projProcessRunning = some true ∧
      saved.projIpcAvailable = some true ∧ saved.projConnected = some true ∧
      saved.projAccountMatch = some true ∧ saved.projTradeAllowed = some true) := by
  constructor
  · rw [hs.ready, hs.state, derive_executionReady, Option.some_inj, decide_eq_true_eq]
  · intro hready
    have hcond := conditions_of_ready (hs.state.symm.trans hready)
    simp only [allExecutionConditions, Bool.and_eq_true] at hcond
    obtain ⟨⟨⟨⟨⟨hrunning, hipc⟩, hconn⟩, hmatch⟩, -⟩, htrade⟩ := hcond
    rw [hs.processRunning, hs.ipcAvailable, hs.connected, hs.accountMatch, hs.tradeAllowed, hrunning,
      hipc, hconn, hmatch, htrade]
    exact ⟨rfl, rfl, rfl, rfl, rfl⟩

lemma WorkspaceKept.congr {ws : HostedMt5Workspace} (hk : WorkspaceKept db pk ws)
    (h : db'.transitionsOf pk = db.transitionsOf pk) : WorkspaceKept db' pk ws := by
  obtain ⟨hj, hlen, hm, hv, hkeys, hb, hr, hc⟩ := hk
  rw [← h] at hj hlen hm hv hkeys
  exact ⟨hj, hlen, hm, hv, hkeys, hb, hr, hc⟩

lemma WorkspaceKept.concat {obs : WorkspaceObservation} {row : WorkspaceTransition}
    (hk : WorkspaceKept db pk locked)
    (hs : Saved locked saved version obs (deriveWorkspaceDecision obs))
    (hrow : Records pk locked version (deriveWorkspaceDecision obs) row)
    (hnew : locked.observationVersion < version) (hmax : version ≤ maxVersion)
    (hlegal : LegalMove locked.canonicalState (deriveWorkspaceDecision obs).nextState)
    (hnumber : saved.decisionVersion = locked.decisionVersion + 1)
    (h : db'.transitionsOf pk = db.transitionsOf pk ++ [row]) : WorkspaceKept db' pk saved where
  journal := by
    rw [h, hs.state, ← hrow.toState]
    refine hk.journal.concat ?_ hrow.fromState
    rw [hk.length]
    exact hrow.decisionVersion
  length := by rw [h, List.length_append, List.length_singleton, hk.length, hnumber]
  moves := by
    intro r hr
    rw [h, List.mem_append, List.mem_singleton] at hr
    rcases hr with hr | rfl
    · exact hk.moves r hr
    · refine ⟨?_, hrow.stateChanged⟩
      rw [hrow.fromState, hrow.toState]
      exact hlegal
  versions := by
    rw [h]
    refine List.pairwise_append.mpr ⟨hk.versions, List.pairwise_singleton _ _, ?_⟩
    intro r hr r' hr'
    rw [List.mem_singleton.mp hr', hrow.observationVersion]
    exact Nat.lt_of_le_of_lt (hk.keys r hr).1 hnew
  keys := by
    intro r hr
    rw [h, List.mem_append, List.mem_singleton] at hr
    rw [hs.version, hs.uuid]
    rcases hr with hr | rfl
    · exact ⟨(hk.keys r hr).1.trans hnew.le, (hk.keys r hr).2⟩
    · rw [hrow.observationVersion]
      exact ⟨Nat.le_refl version, hrow.key⟩
  bound := by rw [hs.version]; exact hmax
  ready := hs.projection.1
  conditions := hs.projection.2

lemma WorkspaceKept.refresh {obs : WorkspaceObservation} (hk : WorkspaceKept db pk locked)
    (hs : Saved locked saved version obs (deriveWorkspaceDecision obs))
    (hnew : locked.observationVersion < version) (hmax : version ≤ maxVersion)
    (hsame : (deriveWorkspaceDecision obs).nextState = locked.canonicalState)
    (hnumber : saved.decisionVersion = locked.decisionVersion)
    (h : db'.transitionsOf pk = db.transitionsOf pk) : WorkspaceKept db' pk saved where
  journal := by
    rw [h, hs.state, hsame]
    exact hk.journal
  length := by rw [h, hk.length, hnumber]
  moves := by rw [h]; exact hk.moves
  versions := by rw [h]; exact hk.versions
  keys := by
    intro r hr
    rw [h] at hr
    rw [hs.version, hs.uuid]
    exact ⟨(hk.keys r hr).1.trans hnew.le, (hk.keys r hr).2⟩
  bound := by rw [hs.version]; exact hmax
  ready := hs.projection.1
  conditions := hs.projection.2

lemma Kept.uuids_modify (hk : Kept db) (hget : db.workspaces.get pk = some locked)
    (huuid : saved.workspaceUuid = locked.workspaceUuid) {pk₁ pk₂ : ℕ}
    {ws₁ ws₂ : HostedMt5Workspace}
    (h₁ : (db.workspaces.modify pk fun _ => saved).get pk₁ = some ws₁)
    (h₂ : (db.workspaces.modify pk fun _ => saved).get pk₂ = some ws₂)
    (h : ws₁.workspaceUuid = ws₂.workspaceUuid) : pk₁ = pk₂ := by
  have horigin : ∀ {k ws}, (db.workspaces.modify pk fun _ => saved).get k = some ws →
      ∃ ws₀, db.workspaces.get k = some ws₀ ∧ ws₀.workspaceUuid = ws.workspaceUuid := by
    intro k ws hws
    rw [Table.get_modify, hget] at hws
    split_ifs at hws with hpk
    · cases hws
      exact ⟨locked, hpk ▸ hget, huuid.symm⟩
    · exact ⟨ws, hws, rfl⟩
  obtain ⟨w₁, hw₁, hu₁⟩ := horigin h₁
  obtain ⟨w₂, hw₂, hu₂⟩ := horigin h₂
  exact hk.uuids hw₁ hw₂ ((hu₁.trans h).trans hu₂.symm)

lemma kept_applyDecision (hk : Kept db) (hget : db.workspaces.get pk = some locked)
    (hnew : locked.observationVersion < version) (hmax : version ≤ maxVersion)
    {obs : WorkspaceObservation}
    (hlegal : LegalMove locked.canonicalState (deriveWorkspaceDecision obs).nextState)
    (corr src : String) (now : ℕ) (recorder : Bool) :
    Kept (applyDecision db pk locked version obs (deriveWorkspaceDecision obs) corr src now
      recorder).1 := by
  obtain ⟨saved, hs, hws, hrest⟩ := applyDecision_cases db pk locked version obs
    (deriveWorkspaceDecision obs) corr src now recorder
  generalize (applyDecision db pk locked version obs (deriveWorkspaceDecision obs) corr src now
    recorder).1 = db' at hws hrest ⊢
  have hself : db'.workspaces.get pk = some saved := by
    rw [hws, Table.get_modify_self, hget]
    rfl
  have hother : ∀ {k}, k ≠ pk → db'.workspaces.get k = db.workspaces.get k := by
    intro k hne
    rw [hws, Table.get_modify_of_ne _ _ hne]
  have huuids : ∀ {k₁ k₂ w₁ w₂}, db'.workspaces.get k₁ = some w₁ → db'.workspaces.get k₂ = some w₂ →
      w₁.workspaceUuid = w₂.workspaceUuid → k₁ = k₂ := by
    intro k₁ k₂ w₁ w₂ h₁ h₂
    rw [hws] at h₁ h₂
    exact hk.uuids_modify hget hs.uuid h₁ h₂
  have howned : ∀ row ∈ db.transitions.rows, ∃ ws, db'.workspaces.get row.workspace = some ws := by
    intro row hrow
    by_cases hpk : row.workspace = pk
    · exact ⟨saved, hpk ▸ hself⟩
    · rw [hother hpk]
      exact hk.owned row hrow
  rcases hrest with ⟨row, hrow, hnumber, htrans, hevents⟩ | ⟨hsame, hnumber, htrans, hevents⟩
  · have hfresh : db.transitions.get row.dedupeKey = none := by
      rw [hrow.key]
      exact hk.fresh_key hget hnew hmax row.toState row.reason
    have hrows : db'.transitions.rows = db.transitions.rows ++ [row] := by
      rw [htrans, Rows.insertOrIgnore_of_fresh hfresh]
    refine ⟨?_, huuids, ?_, ?_, ?_⟩
    · intro k ws hk'
      have hhistory := transitionsOf_concat hrows k
      rw [hrow.workspace] at hhistory
      by_cases hpk : pk = k
      · subst hpk
        rw [hself] at hk'
        cases hk'
        rw [if_pos rfl] at hhistory
        exact (hk.workspace hget).concat hs hrow hnew hmax hlegal hnumber hhistory
      · rw [hother (Ne.symm hpk)] at hk'
        rw [if_neg hpk] at hhistory
        exact (hk.workspace hk').congr hhistory
    · intro r hr
      rw [hrows, List.mem_append, List.mem_singleton] at hr
      rcases hr with hr | rfl
      · exact howned r hr
      · exact ⟨saved, hrow.workspace ▸ hself⟩
    · intro event he
      rw [hrows]
      rcases hevents with hevents | ⟨new, hkey, htel, -, hevents⟩
      · rw [hevents] at he
        obtain ⟨r, hr, hr'⟩ := hk.events event he
        exact ⟨r, List.mem_append_left _ hr, hr'⟩
      · rw [hevents, List.mem_append, List.mem_singleton] at he
        rcases he with he | rfl
        · obtain ⟨r, hr, hr'⟩ := hk.events event he
          exact ⟨r, List.mem_append_left _ hr, hr'⟩
        · exact ⟨row, List.mem_append_right _ List.mem_cons_self, hkey.symm,
            hrow.telemetryEvent htel⟩
    · rcases hevents with hevents | ⟨new, hkey, -, hnone, hevents⟩
      · rw [hevents]
        exact hk.once
      · rw [hevents, List.map_append]
        refine hk.once.append (List.nodup_singleton _) ?_
        intro key hmem hnew
        obtain ⟨event, he, rfl⟩ := List.mem_map.mp hmem
        obtain ⟨r, hr, hrkey, -⟩ := hk.events event he
        have hsamekey : event.dedupKey = new.dedupKey := List.mem_singleton.mp hnew
        exact Rows.get_eq_none_iff.mp hnone r hr ((hrkey.trans hsamekey).trans hkey)
  · have hhistory : ∀ k, db'.transitionsOf k = db.transitionsOf k := by
      intro k
      unfold Database.transitionsOf
      rw [htrans]
    refine ⟨?_, huuids, ?_, ?_, ?_⟩
    · intro k ws hk'
      by_cases hpk : k = pk
      · subst hpk
        rw [hself] at hk'
        cases hk'
        exact (hk.workspace hget).refresh hs hnew hmax hsame hnumber (hhistory k)
      · rw [hother hpk] at hk'
        exact (hk.workspace hk').congr (hhistory k)
    · rw [htrans]
      exact howned
    · rw [htrans, hevents]
      exact hk.events
    · rw [hevents]
      exact hk.once

/-! ### Runs -/

lemma kept_create (hk : Kept db) {uuid : WorkspaceUuid}
    (hfree : ∀ e ∈ db.workspaces.rows, e.2.workspaceUuid ≠ uuid) (account : ℕ) :
    Kept (db.create uuid account) := by
  have hnot := db.workspaces.fresh_not_mem
  have hno : ∀ row ∈ db.transitions.rows, row.workspace ≠ db.workspaces.fresh := by
    intro row hrow heq
    obtain ⟨ws, hws⟩ := hk.owned row hrow
    rw [heq] at hws
    exact hnot (Table.mem_keys_of_get hws)
  have hempty : db.transitionsOf db.workspaces.fresh = [] := by
    refine List.filter_eq_nil_iff.mpr fun row hrow => ?_
    simpa using hno row hrow
  refine ⟨?_, ?_, ?_, hk.events, hk.once⟩
  · intro k ws hws
    rw [Database.create, Table.get_insert _ hnot] at hws
    split_ifs at hws with hpk
    · subst hpk
      cases hws
      have hhistory : (db.create uuid account).transitionsOf db.workspaces.fresh = [] := hempty
      constructor <;> simp [hhistory, Journal.nil]
    · exact (hk.workspace hws).congr rfl
  · intro k₁ k₂ w₁ w₂ h₁ h₂ h
    rw [Database.create, Table.get_insert _ hnot] at h₁ h₂
    split_ifs at h₁ h₂ with hp₁ hp₂ hp₂
    · exact hp₁.trans hp₂.symm
    · cases h₁
      exact absurd h.symm (hfree _ (Table.mem_rows_of_get h₂))
    · cases h₂
      exact absurd h (hfree _ (Table.mem_rows_of_get h₁))
    · exact hk.uuids h₁ h₂ h
  · intro row hrow
    obtain ⟨ws, hws⟩ := hk.owned row hrow
    exact ⟨ws, Table.get_insert_of_get hnot hws⟩

lemma kept_step {s : State} (hk : Kept s.db) (a : Action) : Kept (step s a).db := by
  cases a with
  | create uuid account =>
    dsimp only [step]
    split_ifs with hused
    · exact hk
    · refine kept_create hk ?_ account
      intro e he heq
      exact hused (List.any_eq_true.mpr ⟨e, he, decide_eq_true heq⟩)
  | ingest c enabled workspace obs version corr source =>
    dsimp only [step]
    split_ifs
    · exact hk
    · exact hk
  | persist c now recorder =>
    unfold step
    cases hout : outcome s (.persist c now recorder) with
    | none => exact hk
    | some out =>
      obtain ⟨call, -, hpersist⟩ := Option.bind_eq_some_iff.mp hout
      rcases persist_cases hpersist with ⟨hsame, -⟩ |
        ⟨pk, locked, version, corr, src, -, hget, hnew, hmax, hlegal, happ⟩
      · exact hsame ▸ hk
      · have hdb := congrArg Prod.fst happ
        dsimp only at hdb ⊢
        rw [hdb]
        exact kept_applyDecision hk hget hnew hmax hlegal corr src now recorder
  | crash c => exact hk

lemma kept_init : Kept (State.db {}) := by
  refine ⟨?_, ?_, ?_, ?_, List.nodup_nil⟩
  · intro pk ws h
    cases h
  · intro pk pk' ws ws' h
    cases h
  · intro row hrow
    cases hrow
  · intro event he
    cases he

/-- What the rows, the state and the projection of a workspace say of each other. -/
structure HistoryAgrees (db : Database) (pk : ℕ) (ws : HostedMt5Workspace) : Prop where
  numbered : (db.transitionsOf pk).map (·.decisionVersion) = List.range' 1 ws.decisionVersion
  /-- Every row begins where the row before it ended, -/
  linked : (db.transitionsOf pk).IsChain fun row row' => row'.fromState = row.toState
  /-- the first one in the state of a new workspace, -/
  starts : ∀ row ∈ (db.transitionsOf pk).head?, row.fromState = provisioning
  ends : (((db.transitionsOf pk).getLast?).map (·.toState)).getD provisioning = ws.canonicalState
  /-- A row that says that the state has changed is an edge of the graph, and the others stay. -/
  edges : ∀ row ∈ db.transitionsOf pk,
    if row.stateChanged then row.toState ∈ workspaceTransitions row.fromState
    else row.toState = row.fromState
  /-- The observations of the rows are in order, none of them newer than the stored one. -/
  versions : ((db.transitionsOf pk).map (·.observationVersion) ++ [ws.observationVersion + 1]).Pairwise
    (· < ·)
  events : ∀ row ∈ db.transitionsOf pk,
    (db.events.filter fun event => event.dedupKey = row.dedupeKey).length ≤ 1
  ready : ws.projExecutionReady = some true ↔ ws.canonicalState = executionReady
  conditions : ws.canonicalState = executionReady → ws.projProcessRunning = some true ∧
    ws.projIpcAvailable = some true ∧ ws.projConnected = some true ∧
    ws.projAccountMatch = some true ∧ ws.projTradeAllowed = some true

lemma Kept.historyAgrees (hk : Kept db) {ws : HostedMt5Workspace}
    (hget : db.workspaces.get pk = some ws) : HistoryAgrees db pk ws where
  numbered := by rw [← (hk.workspace hget).length]; exact (hk.workspace hget).journal.numbered
  linked := (hk.workspace hget).journal.linked.imp fun _ _ h => h.symm
  starts := (hk.workspace hget).journal.starts
  ends := (hk.workspace hget).journal.ends
  edges := by
    intro row hrow
    obtain ⟨hlegal, hchanged⟩ := (hk.workspace hget).moves row hrow
    by_cases hsame : row.toState = row.fromState
    · simpa [hchanged, hsame] using hsame
    · rw [hchanged, if_pos (decide_eq_true hsame)]
      exact hlegal.resolve_left hsame
  versions := by
    refine List.pairwise_append.mpr ⟨List.pairwise_map.mpr (hk.workspace hget).versions,
      List.pairwise_singleton _ _, ?_⟩
    intro v hv v' hv'
    obtain ⟨row, hrow, rfl⟩ := List.mem_map.mp hv
    rw [List.mem_singleton.mp hv']
    exact Nat.lt_succ_of_le ((hk.workspace hget).keys row hrow).1
  events := by
    intro row _
    have hcount := List.nodup_iff_count_le_one.mp hk.once row.dedupeKey
    rw [List.count_eq_length_filter, List.filter_map, List.length_map] at hcount
    exact hcount
  ready := (hk.workspace hget).ready
  conditions := (hk.workspace hget).conditions

/-- What a step does to the versions: a decision is accepted only with a newer version, which it
stores, and no other step changes a workspace. -/
structure VersionsRise (s : State) (a : Action) : Prop where
  accepted : ∀ db r, outcome s a = some (db, r) → r.Accepted → ∃ pk ws ws',
    s.db.workspaces.get pk = some ws ∧ (step s a).db.workspaces.get pk = some ws' ∧
      ws.observationVersion < ws'.observationVersion ∧
      ws'.observationVersion = r.observationVersion
  refused : (∀ db r, outcome s a = some (db, r) → ¬ r.Accepted) → ∀ pk ws,
    s.db.workspaces.get pk = some ws → (step s a).db.workspaces.get pk = some ws

lemma versionsRise (s : State) (a : Action) : VersionsRise s a := by
  constructor
  · intro db r hout hacc
    cases a with
    | persist c now recorder =>
      have hdb : (step s (.persist c now recorder)).db = db := by
        unfold step
        rw [hout]
      obtain ⟨call, -, hpersist⟩ := Option.bind_eq_some_iff.mp hout
      rcases persist_cases hpersist with ⟨-, hno⟩ |
        ⟨pk, locked, version, corr, src, -, hget, hnew, -, -, happ⟩
      · exact absurd hacc hno
      · obtain ⟨saved, hs, hws, -⟩ := applyDecision_cases s.db pk locked version call.observation
          (deriveWorkspaceDecision call.observation) corr src now recorder
        have hresult := applyDecision_result s.db pk locked version call.observation
          (deriveWorkspaceDecision call.observation) corr src now recorder
        rw [← happ] at hws hresult
        refine ⟨pk, locked, saved, hget, ?_, ?_, ?_⟩
        · rw [hdb, hws, Table.get_modify_self, hget]
          rfl
        · rw [hs.version]
          exact hnew
        · rw [hs.version, hresult.2]
    | create uuid account => cases hout
    | ingest c enabled workspace obs version corr source => cases hout
    | crash c => cases hout
  · intro hno pk ws hget
    cases a with
    | create uuid account =>
      dsimp only [step]
      split_ifs
      · exact hget
      · exact Table.get_insert_of_get s.db.workspaces.fresh_not_mem hget
    | ingest c enabled workspace obs version corr source =>
      dsimp only [step]
      split_ifs
      · exact hget
      · exact hget
    | persist c now recorder =>
      unfold step
      cases hout : outcome s (.persist c now recorder) with
      | none => exact hget
      | some out =>
        obtain ⟨call, -, hpersist⟩ := Option.bind_eq_some_iff.mp hout
        rcases persist_cases hpersist with ⟨hsame, -⟩ |
          ⟨pk', locked, version, corr, src, -, -, -, -, -, happ⟩
        · dsimp only
          rw [hsame]
          exact hget
        · have hresult := applyDecision_result s.db pk' locked version call.observation
            (deriveWorkspaceDecision call.observation) corr src now recorder
          rw [← happ] at hresult
          exact absurd hresult.1 (hno out.1 out.2 hout)
    | crash c => exact hget

/-- In every interleaving of ingestions, with any versions and premises, the history of each workspace
agrees with its row, and the version rises with every accepted decision. -/
theorem workspaceHistory (as : List Action) :
    (∀ pk ws, (run step {} as).db.workspaces.get pk = some ws →
      HistoryAgrees (run step {} as).db pk ws) ∧
    ∀ a, VersionsRise (run step {} as) a := by
  have hk : Kept (run step {} as).db :=
    run_invariant (P := fun s : State => Kept s.db) (fun s a h => kept_step h a) kept_init as
  exact ⟨fun pk ws hget => hk.historyAgrees hget, fun a => versionsRise _ a⟩

end HostedWorkspace
end GuvFX
