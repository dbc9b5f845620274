/-
# The live path as a concurrent system

Any number of producers turn intents into live orders, while operators grant and revoke
authorizations, followers are configured, the broker settles orders, and the clock, the flags and
the broker facts move on.  A producer locks the replication and the follower, reads the active
authorization of the pair and evaluates the admission, looks the active authorization up again in
order to lock it, computes its writes from the locked row, and commits.  Each of these is a step of
its own, and every other party may move in between.

An action that is not enabled leaves the state as it is.
-/
import GuvFX.Lib.Locks
import GuvFX.Lib.Runs
import GuvFX.TradeCopier.LiveExecution

namespace GuvFX
namespace LiveExecution

open Flags Follower
open Consumer (RequestedOp ReplicationStatus)

inductive Row where
  | replication (k : ℕ)
  | follower (k : ℕ)
  | authorization (k : ℕ)
  deriving DecidableEq, Repr

/-- Where a producer stands. -/
inductive Pc where
  | idle
  /-- The preflight of the replication `r` has passed. -/
  | preflight (r : ℕ)
  | lockedReplication (r : ℕ)
  | lockedFollower (r f : ℕ)
  /-- The admission has read the active authorization of the pair, if there is one. -/
  | admitting (r f : ℕ) (authz : Option (ℕ × CopierLiveAuthorization))
  | admitted (r f a : ℕ)
  /-- The locking read has found the authorization `id` and waits for its lock. -/
  | selected (r f a id : ℕ)
  | charged (r f a id : ℕ)
  | commit (t : Txn)
  deriving DecidableEq, Repr

def Pc.rows : Pc → List Row
  | .idle | .preflight _ => []
  | .lockedReplication r => [.replication r]
  | .lockedFollower r f | .admitting r f _ | .admitted r f _ | .selected r f _ _ =>
    [.replication r, .follower f]
  | .charged r f _ id => [.replication r, .follower f, .authorization id]
  | .commit t => [.replication t.replicationId, .follower t.followerId,
      .authorization t.authorizationId]

/-- The answer of a producer. -/
inductive Reply where
  | refused (replicationId : ℕ) (reason : String)
  | produced (replicationId jobId : ℕ) (volume : ℚ)
  deriving DecidableEq, Repr

structure State where
  db : Db
  env : Env
  pc : ℕ → Pc
  locks : Locks Row
  replies : List (ℕ × Reply)
  /-- The live orders created so far: the key of the job, and what its creation had read. -/
  created : List (ℕ × Txn)

/-- The system before anything has happened. -/
def init (env : Env) : State where
  db := ⟨.empty, .empty, .empty, .empty, .empty⟩
  env := env
  pc := fun _ => .idle
  locks := .free
  replies := []
  created := []

/-- The steps of the system. -/
inductive Action where
  /-- Flags, clock, switches and broker facts change in any way. -/
  | env (e : Env)
  | recordEvent (k : ℕ) (event : MasterEvent)
  | configureFollower (k : ℕ) (follower : CopierFollower)
  | recordReplication (k : ℕ) (rep : CopierReplication)
  /-- Broker evidence settles an order that was requested. -/
  | settle (r : ℕ) (verified : Bool)
  /-- A producer that is not the live one turns an intent into its job. -/
  | produceOther (r j : ℕ) (job : ExecutionJob) (status : ReplicationStatus)
  | grant (id : ℕ) (request : GrantRequest)
  /-- A revocation marks the row, and may retire it as well. -/
  | revoke (id : ℕ) (retire : Bool)
  | produce (p r : ℕ)
  | lockReplication (p : ℕ)
  | lockFollower (p : ℕ)
  | readAuthorization (p : ℕ)
  | admits (p : ℕ)
  | select (p : ℕ)
  | lockAuthorization (p : ℕ)
  | create (p : ℕ)
  /-- The transaction commits; `j` is the key of the new job. -/
  | commit (p j : ℕ)
  | crash (p : ℕ)

/-! ### The writes -/

/-- The row of a new intent: no job, and a status that the replication pass gives. -/
def isIntent (rep : CopierReplication) : Bool :=
  rep.executionJobId = none ∧
    (rep.status = .shadowRecorded ∨ rep.status = .rejected ∨ rep.status = .skipped)

/-- May the intent be recorded: a new key, an event and a follower that exist, and no other intent
of the two. -/
def recordable (db : Db) (k : ℕ) (rep : CopierReplication) : Bool :=
  isIntent rep ∧ k ∉ db.replications.keys ∧ (db.events.get rep.masterEventId).isSome ∧
    (db.followers.get rep.followerId).isSome ∧
    (db.replications.first fun _ other =>
      other.masterEventId = rep.masterEventId ∧ other.followerId = rep.followerId) = none

/-- The follower `k` is created or changed. -/
def Db.configure (db : Db) (k : ℕ) (follower : CopierFollower) : Db :=
  { db with
    followers := if k ∈ db.followers.keys then db.followers.modify k fun _ => follower
      else db.followers.insert k follower }

/-- The replication `r` gets the job `j`. -/
def Db.assign (db : Db) (r j : ℕ) (job : ExecutionJob) (status : ReplicationStatus)
    (targetVolume : Option ℚ) : Db :=
  { db with
    jobs := db.jobs.insert j job
    replications := db.replications.modify r fun rep =>
      { rep with executionJobId := some j, status, targetVolume } }

/-- The order of the replication `r` is settled. -/
def Db.settle (db : Db) (r : ℕ) (verified : Bool) : Db :=
  let status := match verified with
    | true => .executionVerified
    | false => .executionFailed
  { db with replications := db.replications.modify r fun rep => { rep with status } }

/-- A revocation of the row. -/
def CopierLiveAuthorization.revoke (authz : CopierLiveAuthorization) (now : Time) (retire : Bool) :
    CopierLiveAuthorization :=
  { authz with
    revokedAt := some now
    status := if retire ∧ authz.status = .active then .revoked else authz.status }

/-- The authorization `id` is revoked. -/
def Db.revoke (db : Db) (id : ℕ) (now : Time) (retire : Bool) : Db :=
  { db with authorizations := db.authorizations.modify id fun authz => authz.revoke now retire }

/-- The writes of a creation. -/
def Db.apply (db : Db) (j : ℕ) (t : Txn) : Db :=
  { db.assign t.replicationId j t.job .executionRequested (some t.volume) with
    authorizations := db.authorizations.modify t.authorizationId fun authz =>
      { authz with
        ordersConsumed := t.authorization.consume.ordersConsumed
        status := t.authorization.consume.status } }

/-! ### The steps -/

/-- Producer `p` moves on. -/
def State.goto (s : State) (p : ℕ) (pc : Pc) : State := { s with pc := Function.update s.pc p pc }

/-- Producer `p` takes the lock of a row and moves on. -/
def State.lock (s : State) (p : ℕ) (row : Row) (pc : Pc) : State :=
  { s.goto p pc with locks := s.locks.take row p }

/-- Producer `p` ends its transaction without writes and answers. -/
def State.finish (s : State) (p : ℕ) (reply : Option Reply) : State :=
  { s.goto p .idle with
    locks := s.locks.release p
    replies := s.replies ++ (reply.map fun r => (p, r)).toList }

/-- Producer `p` commits its writes, with the key `j` for the new job, and answers. -/
def State.commit (s : State) (p j : ℕ) (t : Txn) : State :=
  { s.finish p (some (.produced t.replicationId j t.volume)) with
    db := s.db.apply j t
    created := s.created ++ [(j, t)] }

def partners (db : Db) (rep : CopierReplication) : Option (CopierFollower × MasterEvent) :=
  match db.followers.get rep.followerId, db.events.get rep.masterEventId with
  | some follower, some event => some (follower, event)
  | _, _ => none

def admission (w : World) (s : State) (authz : Option (ℕ × CopierLiveAuthorization))
    (rep : CopierReplication) : Except String ℕ :=
  match partners s.db rep with
  | none => .error "gate:DoesNotExist"
  | some (follower, event) => admitOpen w s.env s.db authz rep rep.followerId follower event

def activeFor (db : Db) (f : ℕ) : Option (ℕ × CopierLiveAuthorization) :=
  (db.followers.get f).bind fun follower =>
    activeAuthorizationFor db follower.masterAccountId follower.followerAccountId

/-- The entry of a producer: its gate and the preflight admission. -/
def produce (w : World) (s : State) (p r : ℕ) : State :=
  match s.db.replications.get r with
  | none => s
  | some rep =>
    if !copierExecuteEnabled s.env.flags then s.finish p (some (.refused r "producer_disabled"))
    else
      match admission w s (activeFor s.db rep.followerId) rep with
      | .error reason => s.finish p (some (.refused r reason))
      | .ok _ => s.goto p (.preflight r)

def lockReplication (s : State) (p r : ℕ) : State :=
  if s.locks (.replication r) ≠ none then s
  else if s.db.replications.get r = none then s.finish p (some (.refused r "gate:DoesNotExist"))
  else if !copierExecuteEnabled s.env.flags then s.finish p (some (.refused r "producer_disabled"))
  else s.lock p (.replication r) (.lockedReplication r)

def lockFollower (s : State) (p r : ℕ) : State :=
  match s.db.replications.get r with
  | none => s.finish p (some (.refused r "gate:DoesNotExist"))
  | some rep =>
    if s.locks (.follower rep.followerId) ≠ none then s
    else s.lock p (.follower rep.followerId) (.lockedFollower r rep.followerId)

def admitRow (w : World) (s : State) (p r f : ℕ) (authz : Option (ℕ × CopierLiveAuthorization)) :
    State :=
  match s.db.replications.get r with
  | none => s.finish p (some (.refused r "gate:DoesNotExist"))
  | some rep =>
    match admission w s authz rep with
    | .error reason => s.finish p (some (.refused r reason))
    | .ok a => s.goto p (.admitted r f a)

/-- The locking read of the authorization: what it finds before it has to wait. -/
def select (s : State) (p r f a : ℕ) : State :=
  match activeFor s.db f with
  | none => s.finish p (some (.refused r "no_live_authorization"))
  | some (id, _) => s.goto p (.selected r f a id)

/-- The lock of the authorization; a row that is no longer active when the lock is obtained is not
returned. -/
def lockAuthorization (s : State) (p r f a id : ℕ) : State :=
  if s.locks (.authorization id) ≠ none then s
  else if (s.db.authorizations.get id).any fun authz => authz.status = .active then
    s.lock p (.authorization id) (.charged r f a id)
  else s.finish p (some (.refused r "no_live_authorization"))

/-- The writes of the creation, computed from the locked rows. -/
def create (w : World) (s : State) (p r f a id : ℕ) : State :=
  match s.db.replications.get r, s.db.authorizations.get id with
  | some rep, some authz =>
    match partners s.db rep with
    | none => s.finish p (some (.refused r "gate:DoesNotExist"))
    | some (follower, event) =>
      match createLiveOpenJob w s.env s.db r rep f follower event a id authz with
      | .error reason => s.finish p (some (.refused r reason))
      | .ok t => s.goto p (.commit t)
  | _, _ => s.finish p (some (.refused r "gate:DoesNotExist"))

def step (w : World) (s : State) : Action → State
  | .env e => { s with env := e }
  | .recordEvent k event =>
    if k ∈ s.db.events.keys then s else { s with db.events := s.db.events.insert k event }
  | .configureFollower k follower =>
    if s.locks (.follower k) = none then { s with db := s.db.configure k follower } else s
  | .recordReplication k rep =>
    if recordable s.db k rep then
      { s with db.replications := s.db.replications.insert k rep }
    else s
  | .settle r verified =>
    match s.db.replications.get r with
    | none => s
    | some rep =>
      if s.locks (.replication r) = none ∧ rep.status = .executionRequested then
        { s with db := s.db.settle r verified }
      else s
  | .produceOther r j job status =>
    match s.db.replications.get r with
    | none => s
    | some rep =>
      if s.locks (.replication r) = none ∧ rep.executionJobId = none ∧ j ∉ s.db.jobs.keys ∧
          job.payload.executionMode ≠ .live ∧ job.payload.copierReplicationId = r ∧
          job.payload.copierLiveAuthorizationId = none then
        { s with db := s.db.assign r j job status rep.targetVolume }
      else s
  | .grant id request =>
    match grantCopierLiveAuthorization w s.env s.db request with
    | .error _ => s
    | .ok authz =>
      if id ∈ s.db.authorizations.keys then s
      else { s with db.authorizations := s.db.authorizations.insert id authz }
  | .revoke id retire =>
    if s.locks (.authorization id) = none then
      { s with db := s.db.revoke id s.env.now retire }
    else s
  | .produce p r => if s.pc p = .idle then produce w s p r else s
  | .lockReplication p =>
    match s.pc p with
    | .preflight r => lockReplication s p r
    | _ => s
  | .lockFollower p =>
    match s.pc p with
    | .lockedReplication r => lockFollower s p r
    | _ => s
  | .readAuthorization p =>
    match s.pc p with
    | .lockedFollower r f => s.goto p (.admitting r f (activeFor s.db f))
    | _ => s
  | .admits p =>
    match s.pc p with
    | .admitting r f authz => admitRow w s p r f authz
    | _ => s
  | .select p =>
    match s.pc p with
    | .admitted r f a => select s p r f a
    | _ => s
  | .lockAuthorization p =>
    match s.pc p with
    | .selected r f a id => lockAuthorization s p r f a id
    | _ => s
  | .create p =>
    match s.pc p with
    | .charged r f a id => create w s p r f a id
    | _ => s
  | .commit p j =>
    match s.pc p with
    | .commit t =>
      if j ∈ s.db.jobs.keys then s
      else s.commit p j t
    | _ => s
  | .crash p => s.finish p none

/-! ### What a step can do -/

/-- The effects of a step, with what enables each of them. -/
inductive Effect (w : World) (s : State) : Action → State → Prop where
  | stutter (a : Action) : Effect w s a s
  | env (e : Env) : Effect w s (.env e) { s with env := e }
  | recordEvent (k : ℕ) (event : MasterEvent) (hk : k ∉ s.db.events.keys) :
      Effect w s (.recordEvent k event) { s with db.events := s.db.events.insert k event }
  | configureFollower (k : ℕ) (follower : CopierFollower) (hfree : s.locks (.follower k) = none) :
      Effect w s (.configureFollower k follower) { s with db := s.db.configure k follower }
  | recordReplication (k : ℕ) (rep : CopierReplication) (hrec : recordable s.db k rep = true) :
      Effect w s (.recordReplication k rep)
        { s with db.replications := s.db.replications.insert k rep }
  | settle (r : ℕ) (verified : Bool) (rep : CopierReplication)
      (hrep : s.db.replications.get r = some rep) (hfree : s.locks (.replication r) = none)
      (hstatus : rep.status = .executionRequested) :
      Effect w s (.settle r verified) { s with db := s.db.settle r verified }
  | produceOther (r j : ℕ) (job : ExecutionJob) (status : ReplicationStatus)
      (rep : CopierReplication) (hrep : s.db.replications.get r = some rep)
      (hfree : s.locks (.replication r) = none) (hnone : rep.executionJobId = none)
      (hj : j ∉ s.db.jobs.keys) (hmode : job.payload.executionMode ≠ .live)
      (hr : job.payload.copierReplicationId = r)
      (hid : job.payload.copierLiveAuthorizationId = none) :
      Effect w s (.produceOther r j job status)
        { s with db := s.db.assign r j job status rep.targetVolume }
  | grant (id : ℕ) (request : GrantRequest) (authz : CopierLiveAuthorization)
      (hgrant : grantCopierLiveAuthorization w s.env s.db request = .ok authz)
      (hid : id ∉ s.db.authorizations.keys) :
      Effect w s (.grant id request)
        { s with db.authorizations := s.db.authorizations.insert id authz }
  | revoke (id : ℕ) (retire : Bool) (hfree : s.locks (.authorization id) = none) :
      Effect w s (.revoke id retire) { s with db := s.db.revoke id s.env.now retire }
  | finish (a : Action) (p : ℕ) (reply : Option Reply) : Effect w s a (s.finish p reply)
  | preflight (p r : ℕ) (hpc : s.pc p = .idle) :
      Effect w s (.produce p r) (s.goto p (.preflight r))
  | lockReplication (p r : ℕ) (hpc : s.pc p = .preflight r)
      (hfree : s.locks (.replication r) = none) :
      Effect w s (.lockReplication p) (s.lock p (.replication r) (.lockedReplication r))
  | lockFollower (p r : ℕ) (rep : CopierReplication) (hpc : s.pc p = .lockedReplication r)
      (hrep : s.db.replications.get r = some rep)
      (hfree : s.locks (.follower rep.followerId) = none) :
      Effect w s (.lockFollower p)
        (s.lock p (.follower rep.followerId) (.lockedFollower r rep.followerId))
  | readAuthorization (p r f : ℕ) (hpc : s.pc p = .lockedFollower r f) :
      Effect w s (.readAuthorization p) (s.goto p (.admitting r f (activeFor s.db f)))
  | admits (p r f : ℕ) (authz : Option (ℕ × CopierLiveAuthorization)) (rep : CopierReplication)
      (a : ℕ) (hpc : s.pc p = .admitting r f authz) (hrep : s.db.replications.get r = some rep)
      (hadm : admission w s authz rep = .ok a) :
      Effect w s (.admits p) (s.goto p (.admitted r f a))
  | select (p r f a id : ℕ) (authz : CopierLiveAuthorization) (hpc : s.pc p = .admitted r f a)
      (hactive : activeFor s.db f = some (id, authz)) :
      Effect w s (.select p) (s.goto p (.selected r f a id))
  | lockAuthorization (p r f a id : ℕ) (authz : CopierLiveAuthorization)
      (hpc : s.pc p = .selected r f a id) (hfree : s.locks (.authorization id) = none)
      (hauthz : s.db.authorizations.get id = some authz) (hactive : authz.status = .active) :
      Effect w s (.lockAuthorization p) (s.lock p (.authorization id) (.charged r f a id))
  | create (p r f a id : ℕ) (rep : CopierReplication) (follower : CopierFollower)
      (event : MasterEvent) (authz : CopierLiveAuthorization) (t : Txn)
      (hpc : s.pc p = .charged r f a id) (hrep : s.db.replications.get r = some rep)
      (hauthz : s.db.authorizations.get id = some authz)
      (hpartners : partners s.db rep = some (follower, event))
      (hcreate : createLiveOpenJob w s.env s.db r rep f follower event a id authz = .ok t) :
      Effect w s (.create p) (s.goto p (.commit t))
  | commit (p j : ℕ) (t : Txn) (hpc : s.pc p = .commit t) (hj : j ∉ s.db.jobs.keys) :
      Effect w s (.commit p j) (s.commit p j t)

section Effects

variable {w : World} {s : State}

variable {p r f j : ℕ}

lemma effect_produce (hpc : s.pc p = .idle) : Effect w s (.produce p r) (produce w s p r) := by
  unfold produce
  split
  · exact .stutter _
  · split_ifs
    · exact .finish _ p _
    · split
      · exact .finish _ p _
      · exact .preflight p r hpc

lemma effect_lockReplication (hpc : s.pc p = .preflight r) :
    Effect w s (.lockReplication p) (lockReplication s p r) := by
  unfold lockReplication
  split_ifs with hfree
  · exact .stutter _
  · exact .finish _ p _
  · exact .finish _ p _
  · exact .lockReplication p r hpc (not_not.mp hfree)

lemma effect_lockFollower (hpc : s.pc p = .lockedReplication r) :
    Effect w s (.lockFollower p) (lockFollower s p r) := by
  unfold lockFollower
  split
  · exact .finish _ p _
  · rename_i rep hrep
    split_ifs with hfree
    · exact .stutter _
    · exact .lockFollower p r rep hpc hrep (not_not.mp hfree)

lemma effect_admits {authz : Option (ℕ × CopierLiveAuthorization)}
    (hpc : s.pc p = .admitting r f authz) : Effect w s (.admits p) (admitRow w s p r f authz) := by
  unfold admitRow
  split
  · exact .finish _ p _
  · rename_i rep hrep
    split
    · exact .finish _ p _
    · rename_i a hadm
      exact .admits p r f authz rep a hpc hrep hadm

lemma effect_select {a : ℕ} (hpc : s.pc p = .admitted r f a) :
    Effect w s (.select p) (select s p r f a) := by
  unfold select
  split
  · exact .finish _ p _
  · rename_i id authz hactive
    exact .select p r f a id authz hpc hactive

lemma effect_lockAuthorization {a id : ℕ} (hpc : s.pc p = .selected r f a id) :
    Effect w s (.lockAuthorization p) (lockAuthorization s p r f a id) := by
  unfold lockAuthorization
  split_ifs with hfree hactive
  · exact .stutter _
  · obtain ⟨authz, hauthz, hstatus⟩ := (Option.any_eq_true _ _).mp hactive
    exact .lockAuthorization p r f a id authz hpc (not_not.mp hfree) hauthz (by simpa using hstatus)
  · exact .finish _ p _

lemma effect_create {a id : ℕ} (hpc : s.pc p = .charged r f a id) :
    Effect w s (.create p) (create w s p r f a id) := by
  unfold create
  split
  · rename_i rep authz hrep hauthz
    split
    · exact .finish _ p _
    · rename_i follower event hpartners
      split
      · exact .finish _ p _
      · rename_i t hcreate
        exact .create p r f a id rep follower event authz t hpc hrep hauthz hpartners hcreate
  · exact .finish _ p _

/-- **Every step has one of the effects.** -/
theorem step_effect (w : World) (s : State) (a : Action) : Effect w s a (step w s a) := by
  cases a with
  | env e => exact .env e
  | recordEvent k event =>
    simp only [step]
    split_ifs with hk
    · exact .stutter _
    · exact .recordEvent k event hk
  | configureFollower k follower =>
    simp only [step]
    split_ifs with hfree
    · exact .configureFollower k follower hfree
    · exact .stutter _
  | recordReplication k rep =>
    simp only [step]
    split_ifs with hrec
    · exact .recordReplication k rep hrec
    · exact .stutter _
  | settle r verified =>
    simp only [step]
    split
    · exact .stutter _
    · rename_i rep hrep
      split_ifs with h
      · exact .settle r verified rep hrep h.1 h.2
      · exact .stutter _
  | produceOther r j job status =>
    simp only [step]
    split
    · exact .stutter _
    · rename_i rep hrep
      split_ifs with h
      · obtain ⟨hfree, hnone, hj, hmode, hr, hid⟩ := h
        exact .produceOther r j job status rep hrep hfree hnone hj hmode hr hid
      · exact .stutter _
  | grant id request =>
    simp only [step]
    split
    · exact .stutter _
    · rename_i authz hgrant
      split_ifs with hid
      · exact .stutter _
      · exact .grant id request authz hgrant hid
  | revoke id retire =>
    simp only [step]
    split_ifs with hfree
    · exact .revoke id retire hfree
    · exact .stutter _
  | produce p r =>
    simp only [step]
    split_ifs with hpc
    · exact effect_produce hpc
    · exact .stutter _
  | lockReplication p =>
    simp only [step]
    split
    · rename_i r hpc
      exact effect_lockReplication hpc
    · exact .stutter _
  | lockFollower p =>
    simp only [step]
    split
    · rename_i r hpc
      exact effect_lockFollower hpc
    · exact .stutter _
  | readAuthorization p =>
    simp only [step]
    split
    · rename_i r f hpc
      exact .readAuthorization p r f hpc
    · exact .stutter _
  | admits p =>
    simp only [step]
    split
    · rename_i r f authz hpc
      exact effect_admits hpc
    · exact .stutter _
  | select p =>
    simp only [step]
    split
    · rename_i r f a hpc
      exact effect_select hpc
    · exact .stutter _
  | lockAuthorization p =>
    simp only [step]
    split
    · rename_i r f a id hpc
      exact effect_lockAuthorization hpc
    · exact .stutter _
  | create p =>
    simp only [step]
    split
    · rename_i r f a id hpc
      exact effect_create hpc
    · exact .stutter _
  | commit p j =>
    simp only [step]
    split
    · rename_i t hpc
      split_ifs with hj
      · exact .stutter _
      · exact .commit p j t hpc hj
    · exact .stutter _
  | crash p => exact .finish _ p none

/-! ### The locks -/

/-- The lock table says what the producers hold. -/
def LocksHeld (s : State) : Prop := Locks.Held (fun p row => row ∈ (s.pc p).rows) s.locks

lemma goto_pc_self (p : ℕ) (pc : Pc) : (s.goto p pc).pc p = pc := Function.update_self ..

lemma goto_pc_of_ne {q : ℕ} (pc : Pc) (h : q ≠ p) : (s.goto p pc).pc q = s.pc q :=
  Function.update_of_ne h ..

lemma locksHeld_init (env : Env) : LocksHeld (init env) := by
  refine Locks.held_free.congr fun q r => ?_
  simp [init, Pc.rows]

lemma LocksHeld.goto {pc : Pc} (h : LocksHeld s) (hrows : pc.rows = (s.pc p).rows) :
    LocksHeld (s.goto p pc) :=
  Locks.Held.moved (fun (pc : Pc) row => row ∈ pc.rows) h fun r => by rw [hrows]

variable {row : Row}

lemma LocksHeld.lock {pc : Pc} (h : LocksHeld s) (hfree : s.locks row = none)
    (hrows : ∀ r, r ∈ pc.rows ↔ r ∈ (s.pc p).rows ∨ r = row) : LocksHeld (s.lock p row pc) :=
  Locks.Held.moved_take (fun (pc : Pc) row => row ∈ pc.rows) h hfree hrows

lemma LocksHeld.finish {reply : Option Reply} (h : LocksHeld s) : LocksHeld (s.finish p reply) :=
  Locks.Held.moved_release (fun (pc : Pc) row => row ∈ pc.rows) h fun _ => List.not_mem_nil

lemma locksHeld_step (h : LocksHeld s) (a : Action) : LocksHeld (step w s a) := by
  have heff := step_effect w s a
  revert heff
  generalize step w s a = s'
  intro heff
  cases heff with
  | finish a p reply => exact h.finish
  | preflight p r hpc => exact h.goto (by rw [hpc]; rfl)
  | lockReplication p r hpc hfree => exact h.lock hfree fun row => by simp [hpc, Pc.rows]
  | lockFollower p r rep hpc hrep hfree => exact h.lock hfree fun row => by simp [hpc, Pc.rows]
  | readAuthorization p r f hpc => exact h.goto (by rw [hpc]; rfl)
  | admits p r f authz rep a hpc hrep hadm => exact h.goto (by rw [hpc]; rfl)
  | select p r f a id authz hpc hactive => exact h.goto (by rw [hpc]; rfl)
  | lockAuthorization p r f a id authz hpc hfree hauthz hactive =>
    exact h.lock hfree fun row => by simp [hpc, Pc.rows, or_assoc]
  | create p r f a id rep follower event authz t hpc hrep hauthz hpartners hcreate =>
    obtain ⟨volume, job, rfl, -⟩ := of_createLiveOpenJob hcreate
    exact h.goto (by rw [hpc]; rfl)
  | commit p j t hpc hj =>
    exact (h.finish : LocksHeld (s.finish p (some (.produced t.replicationId j t.volume))))
  | _ => exact h

/-! ### What the holder of a lock can rely on -/

def Db.Keeps (db db' : Db) : Row → Prop
  | .replication k => ∀ rep, db.replications.get k = some rep → db'.replications.get k = some rep
  | .follower k => ∀ f, db.followers.get k = some f → db'.followers.get k = some f
  | .authorization k => ∀ authz, db.authorizations.get k = some authz →
      db'.authorizations.get k = some authz

lemma Db.Keeps.refl (db : Db) (row : Row) : db.Keeps db row := by
  cases row <;> exact fun _ => id

variable {db : Db}

lemma keeps_configure {k : ℕ} {follower : CopierFollower} {r : Row} (h : r ≠ .follower k) :
    db.Keeps (db.configure k follower) r := by
  cases r with
  | follower j =>
    have hj : j ≠ k := fun hjk => h (by rw [hjk])
    intro f hf
    show (db.configure k follower).followers.get j = some f
    unfold Db.configure
    dsimp only
    split_ifs with hk
    · rwa [Table.get_modify_of_ne _ _ hj]
    · rwa [Table.get_insert _ hk, if_neg hj]
  | replication j => exact fun _ => id
  | authorization j => exact fun _ => id

lemma keeps_assign {job : ExecutionJob} {status : ReplicationStatus} {volume : Option ℚ}
    (h : row ≠ .replication r) : db.Keeps (db.assign r j job status volume) row := by
  cases row with
  | replication k =>
    intro rep hrep
    rwa [← Table.get_modify_of_ne db.replications _ fun hk => h (by rw [hk])] at hrep
  | follower k => exact fun _ => id
  | authorization k => exact fun _ => id

lemma keeps_settle {verified : Bool} (h : row ≠ .replication r) :
    db.Keeps (db.settle r verified) row := by
  cases row with
  | replication k =>
    intro rep hrep
    rwa [← Table.get_modify_of_ne db.replications _ fun hk => h (by rw [hk])] at hrep
  | follower k => exact fun _ => id
  | authorization k => exact fun _ => id

lemma keeps_revoke {id : ℕ} {now : Time} {retire : Bool} (h : row ≠ .authorization id) :
    db.Keeps (db.revoke id now retire) row := by
  cases row with
  | authorization k =>
    intro authz hauthz
    rwa [← Table.get_modify_of_ne db.authorizations _ fun hk => h (by rw [hk])] at hauthz
  | replication k => exact fun _ h => h
  | follower k => exact fun _ h => h

lemma keeps_apply {t : Txn} (hrep : row ≠ .replication t.replicationId)
    (hauthz : row ≠ .authorization t.authorizationId) : db.Keeps (db.apply j t) row := by
  cases row with
  | replication k =>
    intro rep h
    rwa [← Table.get_modify_of_ne db.replications _ fun hk => hrep (by rw [hk])] at h
  | follower k => exact fun _ => id
  | authorization k =>
    intro authz h
    rwa [← Table.get_modify_of_ne db.authorizations _ fun hk => hauthz (by rw [hk])] at h

lemma not_mem_keys_of_recordable {k : ℕ} {rep : CopierReplication}
    (h : recordable db k rep = true) : k ∉ db.replications.keys := by
  simp only [recordable, Bool.decide_and, Bool.and_eq_true, decide_eq_true_eq] at h
  exact h.2.1

lemma keeps_of_holds (h : LocksHeld s) {q : ℕ} (hrow : row ∈ ((step w s a).pc q).rows) :
    s.db.Keeps (step w s a).db row := by
  have heff := step_effect w s a
  revert heff hrow
  generalize step w s a = s'
  intro hrow heff
  have hlocked : row ∈ (s.pc q).rows → s.locks row ≠ none :=
    fun hp hfree => Locks.Held.not_holds_of_free h hfree q hp
  cases heff with
  | configureFollower k follower hfree =>
    exact keeps_configure fun heq => hlocked hrow (by rw [heq, hfree])
  | recordReplication k rep hrec =>
    have hk := not_mem_keys_of_recordable hrec
    cases row with
    | replication j => exact fun other hother => Table.get_insert_of_get hk hother
    | _ => exact fun _ => id
  | settle r verified rep hrep hfree hstatus =>
    exact keeps_settle fun heq => hlocked hrow (by rw [heq, hfree])
  | produceOther r j job status rep hrep hfree hnone hj hmode hr hid =>
    exact keeps_assign fun heq => hlocked hrow (by rw [heq, hfree])
  | grant id request authz hgrant hid =>
    cases row with
    | authorization j => exact fun other hother => Table.get_insert_of_get hid hother
    | _ => exact fun _ h => h
  | revoke id retire hfree => exact keeps_revoke fun heq => hlocked hrow (by rw [heq, hfree])
  | commit p j t hpc hj =>
    by_cases hq : q = p
    · subst hq
      have hidle : (s.commit q j t).pc q = .idle := goto_pc_self q .idle
      rw [hidle] at hrow
      cases hrow
    · -- what another producer holds is not what this one writes
      have hpcq : (s.commit p j t).pc q = s.pc q := goto_pc_of_ne .idle hq
      rw [hpcq] at hrow
      have hne : ∀ other ∈ (s.pc p).rows, row ≠ other := by
        rintro other hother rfl
        exact hq (Locks.Held.unique h hrow hother)
      rw [hpc] at hne
      exact keeps_apply (hne _ (by simp [Pc.rows])) (hne _ (by simp [Pc.rows]))
  | _ => exact Db.Keeps.refl _ _

/-! ### What a producer knows -/

/-- What holds of a creation until it commits: the rows it has read are still there, and its gates
have passed on them. -/
structure Txn.Facts (db : Db) (t : Txn) : Prop where
  replication : db.replications.get t.replicationId = some t.replication
  followerId : t.replication.followerId = t.followerId
  noJob : t.replication.executionJobId = none
  authorization : db.authorizations.get t.authorizationId = some t.authorization
  active : t.authorization.status = .active
  allowance : t.authorization.ordersConsumed < t.authorization.maxOrders
  concurrency : t.openCount < t.authorization.maxConcurrentPositions
  mode : t.job.payload.executionMode = .live
  jobReplication : t.job.payload.copierReplicationId = t.replicationId
  jobAuthorization : t.job.payload.copierLiveAuthorizationId = some t.authorizationId

/-- What a producer knows of the rows it has locked. -/
def Pc.Facts (db : Db) : Pc → Prop
  | .idle | .preflight _ | .lockedReplication _ => True
  | .lockedFollower r f | .admitting r f _ =>
    ∃ rep, db.replications.get r = some rep ∧ rep.followerId = f
  | .admitted r f _ | .selected r f _ _ | .charged r f _ _ =>
    ∃ rep, db.replications.get r = some rep ∧ rep.followerId = f ∧ rep.executionJobId = none
  | .commit t => t.Facts db

lemma Pc.Facts.keeps {db' : Db} {pc : Pc} (h : pc.Facts db)
    (hkeep : ∀ row ∈ pc.rows, db.Keeps db' row) : pc.Facts db' := by
  cases pc with
  | idle | preflight | lockedReplication => trivial
  | lockedFollower r f | admitting r f authz =>
    obtain ⟨rep, hrep, hf⟩ := h
    exact ⟨rep, hkeep (.replication r) (by simp [Pc.rows]) rep hrep, hf⟩
  | admitted r f a | selected r f a id | charged r f a id =>
    obtain ⟨rep, hrep, hf⟩ := h
    exact ⟨rep, hkeep (.replication r) (by simp [Pc.rows]) rep hrep, hf⟩
  | commit t =>
    exact { h with
      replication := hkeep (.replication t.replicationId) (by simp [Pc.rows]) _ h.replication
      authorization :=
        hkeep (.authorization t.authorizationId) (by simp [Pc.rows]) _ h.authorization }

lemma noJob_of_admission {authz : Option (ℕ × CopierLiveAuthorization)} {rep : CopierReplication}
    {a : ℕ} (h : admission w s authz rep = .ok a) : rep.executionJobId = none := by
  unfold admission at h
  split at h
  · cases h
  · have hproducible := (of_admitOpen h).1
    simp only [producible, List.forall_mem_cons, decide_eq_true_eq] at hproducible
    exact hproducible.1

/-- What the producers know stays true. -/
lemma facts_step (hlocks : LocksHeld s) (h : ∀ p, (s.pc p).Facts s.db) (a : Action) (q : ℕ) :
    ((step w s a).pc q).Facts (step w s a).db := by
  have heff := step_effect w s a
  have hkeep : (step w s a).pc q = s.pc q → ((step w s a).pc q).Facts (step w s a).db := by
    intro hpc
    have hkeeps : ∀ row ∈ ((step w s a).pc q).rows, s.db.Keeps (step w s a).db row :=
      fun row hrow => keeps_of_holds hlocks hrow
    rw [hpc] at hkeeps ⊢
    exact (h q).keeps hkeeps
  revert heff hkeep
  generalize step w s a = s'
  intro heff hkeep
  -- the producers that do not move keep what they know
  have hmove : ∀ p pc, s'.pc = Function.update s.pc p pc → pc.Facts s'.db →
      (s'.pc q).Facts s'.db := by
    intro p pc hpcs hfacts
    by_cases hq : q = p
    · rw [hpcs, hq, Function.update_self]
      exact hfacts
    · exact hkeep (by rw [hpcs, Function.update_of_ne hq])
  cases heff with
  | finish a p reply =>
    exact hmove p .idle rfl trivial
  | preflight p r hpc =>
    exact hmove p _ rfl trivial
  | lockReplication p r hpc hfree =>
    exact hmove p _ rfl trivial
  | lockFollower p r rep hpc hrep hfree =>
    exact hmove p _ rfl ⟨rep, hrep, rfl⟩
  | readAuthorization p r f hpc =>
    have hp := h p
    rw [hpc] at hp
    exact hmove p _ rfl hp
  | admits p r f authz rep a hpc hrep hadm =>
    have hp := h p
    rw [hpc] at hp
    obtain ⟨rep', hrep', hf⟩ := hp
    obtain rfl : rep = rep' := Option.some.inj (hrep.symm.trans hrep')
    exact hmove p _ rfl
      ⟨rep, hrep, hf, noJob_of_admission hadm⟩
  | select p r f a id authz hpc hactive =>
    have hp := h p
    rw [hpc] at hp
    exact hmove p _ rfl hp
  | lockAuthorization p r f a id authz hpc hfree hauthz hactive =>
    have hp := h p
    rw [hpc] at hp
    exact hmove p _ rfl hp
  | create p r f a id rep follower event authz t hpc hrep hauthz hpartners hcreate =>
    have hp := h p
    rw [hpc] at hp
    obtain ⟨rep', hrep', hf, hnone⟩ := hp
    obtain rfl : rep = rep' := Option.some.inj (hrep.symm.trans hrep')
    obtain ⟨volume, job, rfl, hmode, hr, hid, -, hactive, hallowance, hcount⟩ :=
      of_createLiveOpenJob hcreate
    exact hmove p _ rfl
      ⟨hrep, hf, hnone, hauthz, hactive, hallowance, hcount, hmode, hr, hid⟩
  | commit p j t hpc hj =>
    exact hmove p .idle rfl trivial
  | _ => exact hkeep rfl

/-! ### The terms of an authorization -/

def SameTerms (authz authz' : CopierLiveAuthorization) : Prop :=
  authz' = { authz with
    ordersConsumed := authz'.ordersConsumed, status := authz'.status
    revokedAt := authz'.revokedAt }

structure LaterAuthorization (authz authz' : CopierLiveAuthorization) : Prop where
  terms : SameTerms authz authz'
  active : authz'.status = .active → authz.status = .active
  consumed : authz.status = .consumed →
    authz'.status = .consumed ∧ authz'.ordersConsumed = authz.ordersConsumed

instance : Std.Refl LaterAuthorization where
  refl _ := ⟨rfl, id, fun h => ⟨h, rfl⟩⟩

instance : IsTrans CopierLiveAuthorization LaterAuthorization where
  trans authz₁ authz₂ authz₃ h h' := by
    constructor
    · have h₂ : authz₂ = _ := h.terms
      have h₃ : authz₃ = _ := h'.terms
      rw [SameTerms, h₃, h₂]
    · exact fun h₃ => h.active (h'.active h₃)
    · intro h₁
      obtain ⟨h₂, horders⟩ := h.consumed h₁
      obtain ⟨h₃, horders'⟩ := h'.consumed h₂
      exact ⟨h₃, horders'.trans horders⟩

lemma laterAuthorization_consume {authz : CopierLiveAuthorization} (h : authz.status = .active) :
    LaterAuthorization authz authz.consume := by
  refine ⟨rfl, fun _ => h, fun hconsumed => ?_⟩
  rw [h] at hconsumed
  cases hconsumed

lemma laterAuthorization_revoke (authz : CopierLiveAuthorization) (now : Time) (retire : Bool) :
    LaterAuthorization authz (authz.revoke now retire) := by
  refine ⟨rfl, fun h => ?_, fun h => ⟨?_, rfl⟩⟩
  · unfold CopierLiveAuthorization.revoke at h
    dsimp only at h
    split_ifs at h with hretire
    exact h
  · simp [CopierLiveAuthorization.revoke, h]

lemma get_authorizations_apply {t : Txn} (h : t.Facts db) (id : ℕ) :
    (db.apply j t).authorizations.get id =
      if id = t.authorizationId then some t.authorization.consume
      else db.authorizations.get id := by
  show (db.authorizations.modify _ _).get id = _
  rw [Table.get_modify, h.authorization]
  rfl

lemma later_step (h : ∀ p, (s.pc p).Facts s.db) (a : Action) {id : ℕ}
    {authz : CopierLiveAuthorization} (hauthz : s.db.authorizations.get id = some authz) :
    ∃ authz', (step w s a).db.authorizations.get id = some authz' ∧
      LaterAuthorization authz authz' := by
  have heff := step_effect w s a
  revert heff
  generalize step w s a = s'
  intro heff
  cases heff with
  | grant id' request new hgrant hid' =>
    exact ⟨authz, Table.get_insert_of_get hid' hauthz, refl_of LaterAuthorization authz⟩
  | revoke id' retire hfree =>
    show ∃ authz', (s.db.authorizations.modify _ _).get id = some authz' ∧ _
    rw [Table.get_modify]
    split_ifs with hid'
    · subst hid'
      rw [hauthz]
      exact ⟨_, rfl, laterAuthorization_revoke authz _ _⟩
    · exact ⟨authz, hauthz, refl_of LaterAuthorization authz⟩
  | commit p j t hpc hj =>
    have hfacts := h p
    rw [hpc] at hfacts
    show ∃ authz', (s.db.apply j t).authorizations.get id = some authz' ∧ _
    rw [get_authorizations_apply hfacts]
    split_ifs with hid'
    · subst hid'
      obtain rfl : t.authorization = authz :=
        Option.some.inj (hfacts.authorization.symm.trans hauthz)
      exact ⟨_, rfl, laterAuthorization_consume hfacts.active⟩
    · exact ⟨authz, hauthz, refl_of LaterAuthorization authz⟩
  | _ => exact ⟨authz, hauthz, refl_of LaterAuthorization authz⟩

end Effects

/-! ### A sample -/

/-- Two live accounts of one owner at different brokers, and two symbols that both of them trade. -/
def sampleWorld : World where
  accounts k :=
    { userId := 1, accountNumber := toString k
      brokerServer := some ⟨if k = 1 then "Alpha-Live" else "Beta-Live", .live⟩
      isDemo := false, isActive := true, terminalNodeId := some k }
  isMaster k := k = 1
  symbolMaps := [⟨"Alpha-Live", "EURUSD", "Beta-Live", "EURUSDx", true⟩,
    ⟨"Alpha-Live", "GBPUSD", "Beta-Live", "GBPUSDx", true⟩]
  masterPosition _ := some ⟨"BUY", some (11 / 10), some 1, some (12 / 10)⟩

def sampleEnv (now : Time) : Env where
  flags := .allOn
  hostedLiveExecutionEnabled := true
  now := now
  killSwitchEngaged := false
  instruments _ _ := some ⟨true, some (1 / 100), some (1 / 100), none⟩
  brokerRuntimePaused _ := false
  liveExecutionPermitted _ := false

def sampleEvent (sequence : ℕ) : MasterEvent :=
  ⟨1, sequence, .open_, sequence, "EURUSD", "BUY", 1, 1, 10⟩

def sampleIntent (event : ℕ) : CopierReplication :=
  ⟨event, 1, .open_, .shadowRecorded, none, "EURUSDx", some 1, some (12 / 10), true, none⟩

def sampleGrant (maxConcurrent maxOrders : ℕ) : GrantRequest where
  ownerId := 1
  approverIsStaff := true
  masterAccountId := 1
  followerAccountId := 2
  sourceSymbol := "EURUSD"
  followerSymbol := "EURUSDx"
  maxVolume := 5
  maxConcurrent := maxConcurrent
  maxOrders := maxOrders

/-- The steps of a producer until it has the admission of an intent. -/
def admitSteps (p r : ℕ) : List Action :=
  [.produce p r, .lockReplication p, .lockFollower p, .readAuthorization p, .admits p]

/-- The steps of a producer from the locking read to its commit. -/
def createSteps (p j : ℕ) : List Action :=
  [.select p, .lockAuthorization p, .create p, .commit p j]

end LiveExecution
end GuvFX
