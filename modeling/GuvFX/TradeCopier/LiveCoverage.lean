/-
# The authorization that a live order is charged to

The admission and the locking read look the active authorization of the pair up independently.  The
locking read may find another row than the admission read, and only some of the conditions are
evaluated again on it.  Such a row was granted after the event, so that the order lies before its
watermark: an order is covered by the authorization that it is charged to exactly when the two reads
have found the same row.
-/
import GuvFX.TradeCopier.LiveAllowance

namespace GuvFX
namespace LiveExecution

open Checks

variable {w : World} {s : State}

/-! ### The terms decide what an authorization fits -/

variable {authz : CopierLiveAuthorization} {follower : CopierFollower} {event : MasterEvent}

lemma Fits.congr {authz' : CopierLiveAuthorization} {rep : CopierReplication}
    (h : Fits w authz rep follower event) (hterms : SameTerms authz authz') :
    Fits w authz' rep follower event := by
  have heq : authz' = _ := hterms
  rw [heq]
  exact ⟨h.user, h.masterAccount, h.followerAccount, h.identities, h.sourceSymbol, h.resolved,
    h.followerSymbol, h.intentSymbol, h.watermarkSequence, h.watermarkTime⟩

variable {k id f a r : ℕ}

lemma le_maxSequence {db : Db} (h : db.events.get k = some event) :
    event.sequence ≤ maxSequence db event.masterAccountId := by
  have hle : ∀ (l : List ℕ) (n : ℕ), n ≤ l.foldl max n ∧ ∀ x ∈ l, x ≤ l.foldl max n := by
    intro l
    induction l with
    | nil => exact fun n => ⟨le_rfl, by simp⟩
    | cons x xs ih =>
      intro n
      obtain ⟨hmax, hxs⟩ := ih (max n x)
      refine ⟨(le_max_left n x).trans hmax, fun y hy => ?_⟩
      rcases List.mem_cons.mp hy with rfl | hy
      · exact (le_max_right n y).trans hmax
      · exact hxs y hy
  refine (hle _ 0).2 _ (List.mem_map.mpr ⟨(k, event), Table.mem_filter.mpr ⟨h, ?_⟩, rfl⟩)
  simp

/-! ### Where the authorizations come from -/

lemma authorization_of_step (h : ∀ p, (s.pc p).Facts s.db) (a : Action)
    (hget : (step w s a).db.authorizations.get id = some authz) :
    (∃ old, s.db.authorizations.get id = some old ∧ LaterAuthorization old authz) ∨
      ∃ request, a = .grant id request ∧
        grantCopierLiveAuthorization w s.env s.db request = .ok authz := by
  cases hold : s.db.authorizations.get id with
  | some old =>
    obtain ⟨authz', hget', hlater⟩ := later_step (w := w) h a hold
    rw [hget] at hget'
    obtain rfl := Option.some.inj hget'
    exact .inl ⟨old, rfl, hlater⟩
  | none =>
    refine .inr ?_
    have heff := step_effect w s a
    revert heff hget
    generalize step w s a = s'
    intro hget heff
    cases heff with
    | grant id' request new hgrant hid =>
      have hget' : (s.db.authorizations.insert id' new).get id = some authz := hget
      rw [Table.get_insert new hid, hold] at hget'
      split_ifs at hget' with heq
      obtain rfl := Option.some.inj hget'
      exact ⟨request, by rw [heq], hgrant⟩
    | revoke id' retire hfree =>
      have hget' : (s.db.authorizations.modify id' _).get id = some authz := hget
      rw [Table.get_modify] at hget'
      split_ifs at hget' with heq
      · rw [← heq, hold] at hget'
        cases hget'
      · rw [hold] at hget'
        cases hget'
    | commit p j t hpc hj =>
      have hp := h p
      rw [hpc] at hp
      have hget' : (s.db.apply j t).authorizations.get id = some authz := hget
      rw [get_authorizations_apply hp] at hget'
      split_ifs at hget' with heq
      · rw [heq, hp.authorization] at hold
        cases hold
      · rw [hold] at hget'
        cases hget'
    | _ =>
      have hget' : s.db.authorizations.get id = some authz := hget
      rw [hold] at hget'
      cases hget'

lemma not_active_of_activeAuthorizationFor_none {db : Db} {m : ℕ}
    (h : activeAuthorizationFor db m f = none) (hget : db.authorizations.get id = some authz)
    (hm : authz.masterAccountId = m) (hf : authz.followerAccountId = f) :
    authz.status ≠ .active := by
  intro hactive
  have hmem : (id, authz) ∈ db.authorizations.filter fun _ authz =>
      authz.masterAccountId = m ∧ authz.followerAccountId = f ∧ authz.status = .active :=
    Table.mem_filter.mpr ⟨hget, by simp [hm, hf, hactive]⟩
  have hspec := Latest.isLatest_latest (fun e : ℕ × CopierLiveAuthorization => e.2.createdAt) none
    (db.authorizations.filter fun _ authz =>
      authz.masterAccountId = m ∧ authz.followerAccountId = f ∧ authz.status = .active)
  have hnone : Latest.latest (fun e : ℕ × CopierLiveAuthorization => e.2.createdAt) none
    (db.authorizations.filter fun _ authz =>
      authz.masterAccountId = m ∧ authz.followerAccountId = f ∧ authz.status = .active) = none := h
  rw [hnone] at hspec
  have hstale := hspec _ hmem
  simp [Latest.stale] at hstale

def UniqueActive (db : Db) : Prop :=
  ∀ id id' authz authz', db.authorizations.get id = some authz →
    db.authorizations.get id' = some authz' → authz.status = .active → authz'.status = .active →
    authz'.masterAccountId = authz.masterAccountId →
    authz'.followerAccountId = authz.followerAccountId → id' = id

lemma SameTerms.pair {authz' : CopierLiveAuthorization} (h : SameTerms authz authz') :
    authz'.masterAccountId = authz.masterAccountId ∧
      authz'.followerAccountId = authz.followerAccountId ∧
      authz'.watermarkEventSequence = authz.watermarkEventSequence := by
  have heq : authz' = _ := h
  rw [heq]
  exact ⟨rfl, rfl, rfl⟩

lemma not_active_of_grant {env : Env} {db : Db} {request : GrantRequest}
    {old : CopierLiveAuthorization}
    (hgrant : grantCopierLiveAuthorization w env db request = .ok authz)
    (hget : db.authorizations.get id = some old)
    (hm : old.masterAccountId = authz.masterAccountId)
    (hf : old.followerAccountId = authz.followerAccountId) : old.status ≠ .active :=
  not_active_of_activeAuthorizationFor_none (of_grant hgrant).1 hget hm hf

lemma uniqueActive_step (h : UniqueActive s.db) (hfacts : ∀ p, (s.pc p).Facts s.db) (a : Action) :
    UniqueActive (step w s a).db := by
  intro id id' authz authz' hget hget' hactive hactive' hm hf
  rcases authorization_of_step hfacts a hget with ⟨old, hold, hlater⟩ | ⟨request, ha, hgrant⟩
  · obtain ⟨hm₁, hf₁, -⟩ := hlater.terms.pair
    have hold_active := hlater.active hactive
    rcases authorization_of_step hfacts a hget' with ⟨old', hold', hlater'⟩ | ⟨request, -, hgrant⟩
    · obtain ⟨hm₂, hf₂, -⟩ := hlater'.terms.pair
      exact h id id' old old' hold hold' hold_active (hlater'.active hactive')
        (by rw [← hm₁, ← hm₂, hm]) (by rw [← hf₁, ← hf₂, hf])
    · exact absurd hold_active
        (not_active_of_grant hgrant hold (by rw [← hm₁, hm]) (by rw [← hf₁, hf]))
  · rcases authorization_of_step hfacts a hget' with ⟨old', hold', hlater'⟩ | ⟨request', ha', -⟩
    · obtain ⟨hm₂, hf₂, -⟩ := hlater'.terms.pair
      exact absurd (hlater'.active hactive')
        (not_active_of_grant hgrant hold' (by rw [← hm₂, hm]) (by rw [← hf₂, hf]))
    · -- a step grants one row
      rw [ha] at ha'
      cases ha'
      rfl

/-! ### What the admission has seen -/

/-- The rows of a copy: its intent, its follower, and its event. -/
structure Bound (db : Db) (r f : ℕ) (rep : CopierReplication) (follower : CopierFollower)
    (event : MasterEvent) : Prop where
  replication : db.replications.get r = some rep
  followerId : rep.followerId = f
  follower : db.followers.get f = some follower
  event : db.events.get rep.masterEventId = some event

/-- Every active authorization of the pair of the follower, apart from `a`, was granted after the
event. -/
def GrantedAfter (db : Db) (follower : CopierFollower) (event : MasterEvent) (a : ℕ) : Prop :=
  ∀ id authz, db.authorizations.get id = some authz →
    authz.masterAccountId = follower.masterAccountId →
    authz.followerAccountId = follower.followerAccountId → authz.status = .active →
    id = a ∨ (event.masterAccountId = follower.masterAccountId →
      event.sequence ≤ authz.watermarkEventSequence)

/-- The authorization `a` fits the copy. -/
def FitsRow (w : World) (db : Db) (rep : CopierReplication) (follower : CopierFollower)
    (event : MasterEvent) (a : ℕ) : Prop :=
  event.masterAccountId = follower.masterAccountId ∧
    ∃ authz, db.authorizations.get a = some authz ∧ Fits w authz rep follower event

/-- The authorization `id` is the one of the admission, or was granted after the event. -/
def AdmittedOrLater (db : Db) (event : MasterEvent) (a id : ℕ) : Prop :=
  id = a ∨ ∃ authz, db.authorizations.get id = some authz ∧
    event.sequence ≤ authz.watermarkEventSequence

/-- What is known, from the read of the authorization on, of it and of the others. -/
def Pc.Window (w : World) (db : Db) : Pc → Prop
  | .idle | .preflight _ | .lockedReplication _ | .lockedFollower _ _ | .admitting _ _ none => True
  | .admitting r f (some (a, authz)) => ∃ rep follower event, Bound db r f rep follower event ∧
      (∃ authz', db.authorizations.get a = some authz' ∧ SameTerms authz authz') ∧
      GrantedAfter db follower event a
  | .admitted r f a => ∃ rep follower event, Bound db r f rep follower event ∧
      FitsRow w db rep follower event a ∧ GrantedAfter db follower event a
  | .selected r f a id | .charged r f a id => ∃ rep follower event,
      Bound db r f rep follower event ∧ FitsRow w db rep follower event a ∧
      AdmittedOrLater db event a id
  | .commit t => t.Covered w ↔ t.authorizationId = t.admittedId

lemma event_of_step (a : Action) (h : s.db.events.get k = some event) :
    (step w s a).db.events.get k = some event := by
  have heff := step_effect w s a
  revert heff
  generalize step w s a = s'
  intro heff
  cases heff with
  | recordEvent k' event' hk => exact Table.get_insert_of_get hk h
  | _ => exact h

lemma Bound.step (hlocks : LocksHeld s) {a : Action} {q : ℕ} {rep : CopierReplication}
    (h : Bound s.db r f rep follower event)
    (hr : .replication r ∈ ((LiveExecution.step w s a).pc q).rows)
    (hf : .follower f ∈ ((LiveExecution.step w s a).pc q).rows) :
    Bound (LiveExecution.step w s a).db r f rep follower event where
  replication := keeps_of_holds hlocks hr rep h.replication
  followerId := h.followerId
  follower := keeps_of_holds hlocks hf follower h.follower
  event := event_of_step a h.event

lemma FitsRow.step (hfacts : ∀ p, (s.pc p).Facts s.db) (a : Action) {rep : CopierReplication}
    (h : FitsRow w s.db rep follower event id) :
    FitsRow w (LiveExecution.step w s a).db rep follower event id := by
  obtain ⟨hm, authz, hget, hfits⟩ := h
  obtain ⟨authz', hget', hlater⟩ := later_step (w := w) hfacts a hget
  exact ⟨hm, authz', hget', hfits.congr hlater.terms⟩

lemma AdmittedOrLater.step (hfacts : ∀ p, (s.pc p).Facts s.db) (b : Action)
    (h : AdmittedOrLater s.db event a id) :
    AdmittedOrLater (LiveExecution.step w s b).db event a id := by
  rcases h with rfl | ⟨authz, hget, hle⟩
  · exact .inl rfl
  · obtain ⟨authz', hget', hlater⟩ := later_step (w := w) hfacts b hget
    obtain ⟨-, -, hmark⟩ := hlater.terms.pair
    exact .inr ⟨authz', hget', by rw [hmark]; exact hle⟩

lemma GrantedAfter.step (hfacts : ∀ p, (s.pc p).Facts s.db) (b : Action)
    (h : GrantedAfter s.db follower event a) (hevent : s.db.events.get k = some event) :
    GrantedAfter (LiveExecution.step w s b).db follower event a := by
  intro id authz hget hm hf hactive
  rcases authorization_of_step hfacts b hget with ⟨old, hold, hlater⟩ | ⟨request, -, hgrant⟩
  · obtain ⟨hm', hf', hmark⟩ := hlater.terms.pair
    rw [hmark]
    exact h id old hold (by rw [← hm', hm]) (by rw [← hf', hf]) (hlater.active hactive)
  · refine .inr fun hmaster => ?_
    obtain ⟨-, -, -, -, hmark⟩ := of_grant hgrant
    rw [hmark, hm, ← hmaster]
    exact le_maxSequence hevent

/-! ### The rows that an intent names -/

/-- The follower and the event of every intent exist. -/
def Known (db : Db) : Prop :=
  ∀ r rep, db.replications.get r = some rep →
    (∃ follower, db.followers.get rep.followerId = some follower) ∧
      ∃ event, db.events.get rep.masterEventId = some event

lemma follower_of_step (a : Action) (h : s.db.followers.get k = some follower) :
    ∃ follower', (step w s a).db.followers.get k = some follower' := by
  have heff := step_effect w s a
  revert heff
  generalize step w s a = s'
  intro heff
  cases heff with
  | configureFollower k' new hfree =>
    by_cases hk : k = k'
    · subst hk
      refine ⟨new, ?_⟩
      show (s.db.configure k new).followers.get k = some new
      unfold Db.configure
      rw [if_pos (Table.mem_keys_of_get h)]
      simp [h]
    · refine ⟨follower, keeps_configure (r := .follower k) ?_ follower h⟩
      intro heq
      cases heq
      exact hk rfl
  | _ => exact ⟨follower, h⟩

/-- A change of an intent that keeps its follower and its event. -/
lemma replication_of_modify {reps : Table CopierReplication}
    {g : CopierReplication → CopierReplication} {rep : CopierReplication}
    (h : (reps.modify r g).get k = some rep) (hg : ∀ rep, (g rep).followerId = rep.followerId ∧
      (g rep).masterEventId = rep.masterEventId) :
    ∃ old, reps.get k = some old ∧ rep.followerId = old.followerId ∧
      rep.masterEventId = old.masterEventId := by
  rw [Table.get_modify] at h
  split_ifs at h with hk
  · obtain ⟨old, hold, rfl⟩ := Option.map_eq_some_iff.mp h
    exact ⟨old, by rw [hk, hold], (hg old).1, (hg old).2⟩
  · exact ⟨rep, h, rfl, rfl⟩

lemma known_step (h : Known s.db) (a : Action) : Known (step w s a).db := by
  -- it is enough to find the follower and the event before the step
  have hkeep : ∀ rep : CopierReplication,
      (∃ follower, s.db.followers.get rep.followerId = some follower) →
      (∃ event, s.db.events.get rep.masterEventId = some event) →
      (∃ follower, (step w s a).db.followers.get rep.followerId = some follower) ∧
        ∃ event, (step w s a).db.events.get rep.masterEventId = some event := by
    rintro rep ⟨follower, hfollower⟩ ⟨event, hevent⟩
    exact ⟨follower_of_step a hfollower, event, event_of_step a hevent⟩
  have hold : ∀ rep old : CopierReplication, ∀ k, s.db.replications.get k = some old →
      rep.followerId = old.followerId → rep.masterEventId = old.masterEventId →
      (∃ follower, (step w s a).db.followers.get rep.followerId = some follower) ∧
        ∃ event, (step w s a).db.events.get rep.masterEventId = some event := by
    intro rep old k hk hf he
    obtain ⟨hfollower, hevent⟩ := h k old hk
    exact hkeep rep (by rw [hf]; exact hfollower) (by rw [he]; exact hevent)
  have heff := step_effect w s a
  revert heff hkeep hold
  generalize step w s a = s'
  intro hkeep hold heff
  cases heff with
  | recordReplication k rep hrec =>
    intro r rep' hget
    have hget' : (s.db.replications.insert k rep).get r = some rep' := hget
    rw [Table.get_insert rep (not_mem_keys_of_recordable hrec)] at hget'
    split_ifs at hget' with hr
    · obtain rfl := Option.some.inj hget'
      simp only [recordable, Bool.decide_and, Bool.and_eq_true, decide_eq_true_eq] at hrec
      obtain ⟨-, -, hevent, hfollower, -⟩ := hrec
      exact hkeep rep (Option.isSome_iff_exists.mp hfollower) (Option.isSome_iff_exists.mp hevent)
    · exact hold rep' rep' r hget' rfl rfl
  | settle r verified rep hrep hfree hstatus =>
    intro k rep' hget
    have hget' : (s.db.replications.modify _ _).get k = some rep' := hget
    obtain ⟨old, hk, hf, he⟩ := replication_of_modify hget' fun _ => ⟨rfl, rfl⟩
    exact hold rep' old k hk hf he
  | produceOther r j job status rep hrep hfree hnone hj hmode hr hid =>
    intro k rep' hget
    have hget' : (s.db.replications.modify _ _).get k = some rep' := hget
    obtain ⟨old, hk, hf, he⟩ := replication_of_modify hget' fun _ => ⟨rfl, rfl⟩
    exact hold rep' old k hk hf he
  | commit p j t hpc hj =>
    intro k rep' hget
    have hget' : (s.db.replications.modify _ _).get k = some rep' := hget
    obtain ⟨old, hk, hf, he⟩ := replication_of_modify hget' fun _ => ⟨rfl, rfl⟩
    exact hold rep' old k hk hf he
  | _ => exact fun k rep' hget => hold rep' rep' k hget rfl rfl

/-! ### The two reads -/

lemma of_activeFor {db : Db} (h : activeFor db f = some (id, authz))
    (hf : db.followers.get f = some follower) :
    db.authorizations.get id = some authz ∧ authz.masterAccountId = follower.masterAccountId ∧
      authz.followerAccountId = follower.followerAccountId ∧ authz.status = .active := by
  rw [activeFor, hf] at h
  exact of_activeAuthorizationFor h

lemma fitsRow_of_admission {rep : CopierReplication} (h : Bound s.db r f rep follower event)
    (hread : ∃ authz', s.db.authorizations.get id = some authz' ∧ SameTerms authz authz')
    (hadm : admission w s (some (id, authz)) rep = .ok a) :
    a = id ∧ FitsRow w s.db rep follower event a := by
  have hpartners : partners s.db rep = some (follower, event) := by
    simp only [partners, h.followerId, h.follower, h.event]
  rw [admission, hpartners] at hadm
  obtain ⟨-, row, hrow, hchecks⟩ := of_admitOpen hadm
  obtain ⟨rfl, rfl⟩ : id = a ∧ authz = row := by simpa using hrow
  obtain ⟨authz', hget, hterms⟩ := hread
  refine ⟨rfl, ?_, authz', hget, (fits_of_authorizationChecks hchecks).congr hterms⟩
  have hmaster := hchecks (event.masterAccountId = follower.masterAccountId, "event_master_mismatch")
    (by simp [authorizationChecks])
  simpa using hmaster

lemma Pc.Window.step (hlocks : LocksHeld s) (hfacts : ∀ p, (s.pc p).Facts s.db) (b : Action)
    {q : ℕ} {pc : Pc} (hpc : (LiveExecution.step w s b).pc q = pc) (h : pc.Window w s.db) :
    pc.Window w (LiveExecution.step w s b).db := by
  have hrows : ∀ row ∈ pc.rows, row ∈ ((LiveExecution.step w s b).pc q).rows := by
    rw [hpc]
    exact fun _ h => h
  cases pc with
  | idle | preflight | lockedReplication | lockedFollower => trivial
  | commit t => exact h
  | admitting r f authz =>
    cases authz with
    | none => trivial
    | some read =>
      obtain ⟨rep, follower, event, hbound, ⟨authz', hget, hterms⟩, hgranted⟩ := h
      obtain ⟨authz'', hget', hlater⟩ := later_step (w := w) hfacts b hget
      refine ⟨rep, follower, event, hbound.step hlocks (hrows _ (by simp [Pc.rows]))
        (hrows _ (by simp [Pc.rows])), ⟨authz'', hget', sameTerms_trans hterms hlater.terms⟩,
        hgranted.step hfacts b hbound.event⟩
  | admitted r f a =>
    obtain ⟨rep, follower, event, hbound, hfits, hgranted⟩ := h
    exact ⟨rep, follower, event, hbound.step hlocks (hrows _ (by simp [Pc.rows]))
      (hrows _ (by simp [Pc.rows])), hfits.step hfacts b, hgranted.step hfacts b hbound.event⟩
  | selected r f a id | charged r f a id =>
    obtain ⟨rep, follower, event, hbound, hfits, hid⟩ := h
    exact ⟨rep, follower, event, hbound.step hlocks (hrows _ (by simp [Pc.rows]))
      (hrows _ (by simp [Pc.rows])), hfits.step hfacts b, hid.step hfacts b⟩

lemma covered_iff_of_create {db : Db} {env : Env} {rep : CopierReplication} {t : Txn}
    (hcreate : createLiveOpenJob w env db r rep f follower event a id authz = .ok t)
    (hauthz : db.authorizations.get id = some authz) (hfits : FitsRow w db rep follower event a)
    (hid : AdmittedOrLater db event a id) : t.Covered w ↔ t.authorizationId = t.admittedId := by
  obtain ⟨volume, job, rfl, -, -, -, hcovered, -⟩ := of_createLiveOpenJob hcreate
  constructor
  · intro h
    rcases hid with rfl | ⟨authz', hget, hle⟩
    · rfl
    · -- the order lies before the watermark of a row that was granted later
      rw [hauthz] at hget
      obtain rfl := Option.some.inj hget
      exact absurd h.fits.watermarkSequence (not_lt.mpr hle)
  · intro heq
    obtain rfl : id = a := heq
    obtain ⟨-, authz', hget, hfit⟩ := hfits
    rw [hauthz] at hget
    obtain rfl := Option.some.inj hget
    exact hcovered hfit

/-- What the producers know of the two reads. -/
structure Windows (w : World) (s : State) : Prop where
  unique : UniqueActive s.db
  known : Known s.db
  window : ∀ p, (s.pc p).Window w s.db
  created : ∀ c ∈ s.created, (c.2.Covered w ↔ c.2.authorizationId = c.2.admittedId)

lemma window_step (hlocks : LocksHeld s) (hfacts : ∀ p, (s.pc p).Facts s.db) (h : Windows w s)
    (b : Action) (q : ℕ) : ((step w s b).pc q).Window w (step w s b).db := by
  have hkeep : (step w s b).pc q = s.pc q → ((step w s b).pc q).Window w (step w s b).db := by
    intro hpc
    refine Pc.Window.step hlocks hfacts b rfl ?_
    rw [hpc]
    exact h.window q
  have heff := step_effect w s b
  revert heff hkeep
  generalize step w s b = s'
  intro hkeep heff
  -- a move keeps the database, so that the new place is looked at there
  have hmove : ∀ p pc, s'.pc = Function.update s.pc p pc → pc.Window w s'.db →
      (s'.pc q).Window w s'.db := by
    intro p pc hpcs hwindow
    by_cases hq : q = p
    · rw [hpcs, hq, Function.update_self]
      exact hwindow
    · exact hkeep (by rw [hpcs, Function.update_of_ne hq])
  cases heff with
  | finish a p reply =>
    exact hmove p .idle rfl trivial
  | preflight p r hpc =>
    exact hmove p _ rfl trivial
  | lockReplication p r hpc hfree =>
    exact hmove p _ rfl trivial
  | lockFollower p r rep hpc hrep hfree =>
    exact hmove p _ rfl trivial
  | readAuthorization p r f hpc =>
    refine hmove p _ rfl ?_
    cases hactive : activeFor s.db f with
    | none => trivial
    | some read =>
      obtain ⟨a, authz⟩ := read
      have hp := hfacts p
      rw [hpc] at hp
      obtain ⟨rep, hrep, hf⟩ := hp
      obtain ⟨⟨follower, hfollower⟩, event, hevent⟩ := h.known r rep hrep
      rw [hf] at hfollower
      obtain ⟨hget, hm, hfa, hstatus⟩ := of_activeFor hactive hfollower
      refine ⟨rep, follower, event, ⟨hrep, hf, hfollower, hevent⟩, ⟨authz, hget, rfl⟩, ?_⟩
      -- there is no other active row of the pair
      intro id authz' hget' hm' hf' hactive'
      exact .inl (h.unique a id authz authz' hget hget' hstatus hactive' (by rw [hm', hm])
        (by rw [hf', hfa]))
  | admits p r f authz rep a hpc hrep hadm =>
    refine hmove p _ rfl ?_
    have hp := h.window p
    rw [hpc] at hp
    cases authz with
    | none =>
      unfold admission at hadm
      split at hadm
      · cases hadm
      · obtain ⟨-, row, hrow, -⟩ := of_admitOpen hadm
        cases hrow
    | some read =>
      obtain ⟨rep', follower, event, hbound, hread, hgranted⟩ := hp
      obtain rfl : rep' = rep := Option.some.inj (hbound.replication.symm.trans hrep)
      obtain ⟨rfl, hfits⟩ := fitsRow_of_admission hbound hread hadm
      exact ⟨rep', follower, event, hbound, hfits, hgranted⟩
  | select p r f a id authz hpc hactive =>
    refine hmove p _ rfl ?_
    have hp := h.window p
    rw [hpc] at hp
    obtain ⟨rep, follower, event, hbound, hfits, hgranted⟩ := hp
    obtain ⟨hget, hm, hf, hstatus⟩ := of_activeFor hactive hbound.follower
    refine ⟨rep, follower, event, hbound, hfits, ?_⟩
    rcases hgranted id authz hget hm hf hstatus with rfl | hlater
    · exact .inl rfl
    · exact .inr ⟨authz, hget, hlater hfits.1⟩
  | lockAuthorization p r f a id authz hpc hfree hauthz hactive =>
    have hp := h.window p
    rw [hpc] at hp
    exact hmove p _ rfl hp
  | create p r f a id rep follower event authz t hpc hrep hauthz hpartners hcreate =>
    refine hmove p _ rfl ?_
    have hp := h.window p
    rw [hpc] at hp
    obtain ⟨rep', follower', event', hbound, hfits, hid⟩ := hp
    obtain rfl : rep' = rep := Option.some.inj (hbound.replication.symm.trans hrep)
    have hpartners' : partners s.db rep' = some (follower', event') := by
      simp only [partners, hbound.followerId, hbound.follower, hbound.event]
    rw [hpartners] at hpartners'
    obtain ⟨rfl, rfl⟩ : follower = follower' ∧ event = event' := by simpa using hpartners'
    exact covered_iff_of_create hcreate hauthz hfits hid
  | commit p j t hpc hj =>
    exact hmove p .idle rfl trivial
  | _ => exact hkeep rfl

lemma windows_step (hlocks : LocksHeld s) (hfacts : ∀ p, (s.pc p).Facts s.db) (h : Windows w s)
    (b : Action) : Windows w (step w s b) where
  unique := uniqueActive_step h.unique hfacts b
  known := known_step h.known b
  window := window_step hlocks hfacts h b
  created := by
    rcases created_step (w := w) (s := s) b with hsame | ⟨p, j, t, hpc, hstep⟩
    · rw [hsame]
      exact h.created
    · rw [hstep]
      intro c hc
      rcases List.mem_append.mp hc with hc | hc
      · exact h.created c hc
      · obtain rfl := List.mem_singleton.mp hc
        have hp := h.window p
        rw [hpc] at hp
        exact hp

lemma windows_init (w : World) (env : Env) : Windows w (init env) where
  unique _ _ _ _ h := nomatch h
  known _ _ h := nomatch h
  window _ := trivial
  created _ h := nomatch h

/-! ### Runs -/

/-- **What a live order is charged to.**  In every run, the authorization that an order is charged
to meets every condition of the admission at the moment of the creation exactly when it is the one
that the admission has read. -/
lemma covered_iff (w : World) (env : Env) (as : List Action) :
    ∀ c ∈ (Runs.run (step w) (init env) as).created,
      (c.2.Covered w ↔ c.2.authorizationId = c.2.admittedId) := by
  have hrun := Runs.run_invariant (P := fun s => Inv s ∧ Windows w s)
    (fun s a h => ⟨inv_step h.1 a, windows_step h.1.locks h.1.facts h.2 a⟩)
    ⟨inv_init env, windows_init w env⟩ as
  exact hrun.2.created

/-- Does the locking read of a step find the authorization that the admission has read, or none? -/
def readsAdmitted (s : State) : Action → Bool
  | .select p =>
    match s.pc p with
    | .admitted _ f a => (activeFor s.db f).all fun e => e.1 = a
    | _ => true
  | _ => true

/-- The authorizations of the admission and of the locking read, when they have never differed. -/
def Pc.SameRead : Pc → Prop
  | .selected _ _ a id | .charged _ _ a id => id = a
  | .commit t => t.authorizationId = t.admittedId
  | _ => True

structure SameReads (s : State) : Prop where
  pcs : ∀ p, (s.pc p).SameRead
  created : ∀ c ∈ s.created, c.2.authorizationId = c.2.admittedId

lemma sameReads_init (env : Env) : SameReads (init env) where
  pcs _ := trivial
  created _ h := nomatch h

lemma sameReads_step (h : SameReads s) (b : Action) (hcond : readsAdmitted s b = true) :
    SameReads (step w s b) := by
  have heff := step_effect w s b
  revert heff
  generalize step w s b = s'
  intro heff
  have hmove : ∀ (s' : State) p pc, s'.created = s.created → s'.pc = Function.update s.pc p pc →
      pc.SameRead → SameReads s' := by
    intro s' p pc hcreated hpcs hsame
    refine ⟨?_, by rw [hcreated]; exact h.created⟩
    rw [hpcs]
    exact Function.forall_update_iff s.pc (fun _ pc => pc.SameRead) |>.mpr
      ⟨hsame, fun q _ => h.pcs q⟩
  cases heff with
  | finish a p reply =>
    exact hmove _ p .idle rfl rfl trivial
  | preflight p r hpc =>
    exact hmove _ p _ rfl rfl trivial
  | lockReplication p r hpc hfree =>
    exact hmove _ p _ rfl rfl trivial
  | lockFollower p r rep hpc hrep hfree =>
    exact hmove _ p _ rfl rfl trivial
  | readAuthorization p r f hpc =>
    exact hmove _ p _ rfl rfl trivial
  | admits p r f authz rep a hpc hrep hadm =>
    exact hmove _ p _ rfl rfl trivial
  | select p r f a id authz hpc hactive =>
    refine hmove _ p _ rfl rfl ?_
    show id = a
    simpa [readsAdmitted, hpc, hactive] using hcond
  | lockAuthorization p r f a id authz hpc hfree hauthz hactive =>
    have hp := h.pcs p
    rw [hpc] at hp
    exact hmove _ p _ rfl rfl hp
  | create p r f a id rep follower event authz t hpc hrep hauthz hpartners hcreate =>
    have hp := h.pcs p
    rw [hpc] at hp
    obtain ⟨volume, job, rfl, -⟩ := of_createLiveOpenJob hcreate
    exact hmove _ p _ rfl rfl hp
  | commit p j t hpc hj =>
    have hp := h.pcs p
    rw [hpc] at hp
    have hfinish :=
      hmove (s.finish p (some (.produced t.replicationId j t.volume))) p .idle rfl rfl trivial
    refine ⟨hfinish.pcs, fun c hc => ?_⟩
    rcases List.mem_append.mp hc with hc | hc
    · exact h.created c hc
    · rw [List.mem_singleton.mp hc]
      exact hp
  | _ => exact ⟨h.pcs, h.created⟩

/-- **Live orders are covered.**  In every run in which no locking read finds another authorization
than the admission has read, every live order was covered, when it was created, by the authorization
that it is charged to. -/
theorem covered_of_readsAdmitted (w : World) (env : Env) (as : List Action)
    (hmeets : Runs.StepsMeet (step w) (fun s a => readsAdmitted s a = true) (init env) as) :
    ∀ c ∈ (Runs.run (step w) (init env) as).created, c.2.Covered w := by
  intro c hc
  have hsame : SameReads (Runs.run (step w) (init env) as) :=
    Runs.run_invariant_of_meets (P := SameReads) (fun _ a h hcond => sameReads_step h a hcond)
      (sameReads_init env) hmeets
  exact (covered_iff w env as c hc).mpr (hsame.created c hc)

/-- An admission under a first authorization, up to the locking read. -/
def admittedRun : List Action :=
  [.configureFollower 1 ⟨1, 2, true, { mode := .multiplier }⟩, .grant 1 (sampleGrant 1 1),
    .env (sampleEnv 20), .recordEvent 1 (sampleEvent 1), .recordReplication 1 (sampleIntent 1)]
  ++ admitSteps 7 1

theorem covered_of_readsAdmitted_demo :
    let s := Runs.run (step sampleWorld) (init (sampleEnv 0)) (admittedRun ++ createSteps 7 1)
    s.created.length = 1 ∧ ∀ c ∈ s.created, c.2.Covered sampleWorld :=
  ⟨by decide +kernel, covered_of_readsAdmitted sampleWorld (sampleEnv 0)
    (admittedRun ++ createSteps 7 1) (by decide +kernel)⟩

/-- Between the two reads the authorization is retired and another one is granted, for another
symbol. -/
def regrantedRun : List Action :=
  admittedRun ++ [.revoke 1 true,
    .grant 2 { sampleGrant 1 1 with sourceSymbol := "GBPUSD", followerSymbol := "GBPUSDx" }]
  ++ createSteps 7 1

/-- The order is charged to the authorization for the other symbol. -/
theorem charged_to_other_symbol :
    ¬ ∀ c ∈ (Runs.run (step sampleWorld) (init (sampleEnv 0)) regrantedRun).created,
      c.2.Covered sampleWorld := by
  intro h
  have hother : (Runs.run (step sampleWorld) (init (sampleEnv 0)) regrantedRun).created.any
      (fun c => c.2.event.symbol ≠ c.2.authorization.sourceSymbol) = true := by decide +kernel
  obtain ⟨c, hc, hne⟩ := List.any_eq_true.mp hother
  exact of_decide_eq_true hne (h c hc).fits.sourceSymbol

end LiveExecution
end GuvFX
