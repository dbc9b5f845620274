/-
# The four producers at work

Any number of sessions run the four producers over the same intents.  A session scans an intent,
with whatever it has read of the flags and of the rows so far; it then locks the intent, reads the
gate of the producers again, locks the follower, admits the intent once more, reads the arming
flags, decides, and commits.  An opening on a live account also locks the authorization that it
charges.  Every other party may move between two of these steps, and a session may fail at any of
them.

An action that is not enabled leaves the state as it is.
-/
import GuvFX.TradeCopier.ExecutionProducer
import GuvFX.TradeCopier.LiveSystem

namespace GuvFX
namespace ExecutionProducer

open Flags Runs
open Consumer (JobType JobStatus RequestedOp ReplicationStatus)
open LiveExecution (CopierFollower CopierLiveAuthorization Row)

/-! ### Sessions -/

/-- What a session is about to commit. -/
structure Txn where
  producer : Producer
  replicationId : ℕ
  followerId : ℕ
  /-- The row of the intent as it was locked. -/
  replication : CopierReplication
  gate : Flags
  arm : Flags
  live : Bool
  decision : Decision

/-- Where a session stands. -/
inductive Pc where
  | idle
  /-- The scan has let the intent pass. -/
  | preflight (producer : Producer) (r : ℕ)
  | lockedReplication (producer : Producer) (r : ℕ)
  | gated (producer : Producer) (r : ℕ) (gate : Flags)
  | lockedFollower (producer : Producer) (r f : ℕ) (gate : Flags)
  | admitted (producer : Producer) (r f : ℕ) (gate flags : Flags) (admission : Admission)
  /-- The locking read has found the authorization `id` and waits for its lock. -/
  | selected (r f : ℕ) (gate flags : Flags) (a id : ℕ)
  | charged (r f : ℕ) (gate flags : Flags) (a id : ℕ)
  | commit (t : Txn)

def Pc.rows : Pc → List Row
  | .idle | .preflight .. => []
  | .lockedReplication _ r | .gated _ r _ => [.replication r]
  | .lockedFollower _ r f _ | .admitted _ r f _ _ _ | .selected r f _ _ _ _ =>
    [.replication r, .follower f]
  | .charged r f _ _ _ id => [.replication r, .follower f, .authorization id]
  | .commit t => .replication t.replicationId :: .follower t.followerId ::
      (t.decision.charge.map fun c => Row.authorization c.1).toList

structure State where
  db : Db
  env : Env
  pc : ℕ → Pc
  locks : Locks Row
  /-- The refusals, with the session and the reason. -/
  refused : List (ℕ × String)
  /-- The jobs created so far, with what was committed. -/
  created : List (ℕ × Txn)

/-- The system before anything has happened. -/
def init (env : Env) : State where
  db := ⟨.empty, .empty, .empty, .empty, .empty⟩
  env := env
  pc := fun _ => .idle
  locks := .free
  refused := []
  created := []

/-- The steps of the system. -/
inductive Action where
  /-- Flags, clock, accounts and broker facts change in any way. -/
  | env (e : Env)
  | recordEvent (k : ℕ) (event : MasterEvent)
  | configureFollower (k : ℕ) (follower : CopierFollower)
  | recordReplication (k : ℕ) (rep : CopierReplication)
  /-- Reconciliation and settlement change an intent. -/
  | updateReplication (r : ℕ) (rep : CopierReplication)
  | authorize (id : ℕ) (authz : CopierLiveAuthorization)
  | work (j : ℕ) (status : JobStatus)
  /-- The scan of an intent, with the rows and the environment that it has read. -/
  | scan (p : ℕ) (producer : Producer) (r : ℕ) (seen : Db × Env)
  | lockReplication (p : ℕ)
  | gate (p : ℕ)
  | lockFollower (p : ℕ)
  | admits (p : ℕ)
  | decide (p : ℕ)
  | select (p : ℕ)
  | lockAuthorization (p : ℕ)
  | decideLive (p : ℕ)
  /-- The transaction commits; `j` is the key of the new job, if there is one. -/
  | commit (p j : ℕ)
  /-- The session fails and its transaction is rolled back. -/
  | fail (p : ℕ)

/-! ### The writes -/

/-- The columns of an intent that nobody but its producer writes. -/
def sameIntent (rep rep' : CopierReplication) : Bool :=
  rep'.executionJobId = rep.executionJobId ∧ rep'.requestedOp = rep.requestedOp ∧
    rep'.followerId = rep.followerId ∧ rep'.masterEventId = rep.masterEventId

/-- The follower `k` is created or changed. -/
def Db.configure (db : Db) (k : ℕ) (follower : CopierFollower) : Db :=
  { db with
    followers := if k ∈ db.followers.keys then db.followers.modify k fun _ => follower
      else db.followers.insert k follower }

/-- The authorization `id` is granted or changed. -/
def Db.authorize (db : Db) (id : ℕ) (authz : CopierLiveAuthorization) : Db :=
  { db with
    authorizations :=
      if id ∈ db.authorizations.keys then db.authorizations.modify id fun _ => authz
      else db.authorizations.insert id authz }

def Db.charge (db : Db) : Option (ℕ × CopierLiveAuthorization) → Db
  | none => db
  | some (id, authz) =>
    { db with
      authorizations := db.authorizations.modify id fun row =>
        { row with
          ordersConsumed := authz.consume.ordersConsumed, status := authz.consume.status } }

def Db.mark (db : Db) (t : Txn) : Db :=
  { db with replications := db.replications.modify t.replicationId fun _ => t.decision.row }

def Db.assign (db : Db) (j : ℕ) (t : Txn) (job : ExecutionJob) : Db :=
  { db.charge t.decision.charge with
    jobs := db.jobs.insert j job
    replications := db.replications.modify t.replicationId fun _ =>
      { t.decision.row with executionJobId := some j } }

/-! ### The steps -/

/-- Session `p` moves on. -/
def State.goto (s : State) (p : ℕ) (pc : Pc) : State := { s with pc := Function.update s.pc p pc }

/-- Session `p` takes the lock of a row and moves on. -/
def State.lock (s : State) (p : ℕ) (row : Row) (pc : Pc) : State :=
  { s.goto p pc with locks := s.locks.take row p }

/-- Session `p` ends its transaction without writes. -/
def State.finish (s : State) (p : ℕ) (reason : Option String) : State :=
  { s.goto p .idle with
    locks := s.locks.release p
    refused := s.refused ++ (reason.map fun text => (p, text)).toList }

/-- Session `p` commits a decision without a job. -/
def State.mark (s : State) (p : ℕ) (t : Txn) : State :=
  { s.finish p none with db := s.db.mark t }

/-- Session `p` commits a decision with a job under the key `j`. -/
def State.assign (s : State) (p j : ℕ) (t : Txn) (job : ExecutionJob) : State :=
  { s.finish p none with
    db := s.db.assign j t job
    created := s.created ++ [(j, t)] }

def scan (s : State) (p : ℕ) (producer : Producer) (r : ℕ) (seen : Db × Env) : State :=
  if !copierExecuteEnabled seen.2.flags then s.finish p (some "producer_disabled")
  else
    match seen.1.replications.get r with
    | none => s
    | some rep =>
      match admitReplication seen.2 seen.1 producer rep with
      | .error reason => s.finish p (some reason)
      | .ok _ => s.goto p (.preflight producer r)

def lockReplication (s : State) (p : ℕ) (producer : Producer) (r : ℕ) : State :=
  if s.locks (.replication r) ≠ none then s
  else if s.db.replications.get r = none then s.finish p (some "gate:DoesNotExist")
  else s.lock p (.replication r) (.lockedReplication producer r)

def gate (s : State) (p : ℕ) (producer : Producer) (r : ℕ) : State :=
  if !copierExecuteEnabled s.env.flags then s.finish p (some "producer_disabled")
  else s.goto p (.gated producer r s.env.flags)

def lockFollower (s : State) (p : ℕ) (producer : Producer) (r : ℕ) (gate : Flags) : State :=
  match s.db.replications.get r with
  | none => s.finish p (some "gate:DoesNotExist")
  | some rep =>
    if s.locks (.follower rep.followerId) ≠ none then s
    else s.lock p (.follower rep.followerId) (.lockedFollower producer r rep.followerId gate)

/-- The admission on the locked rows. -/
def admitAgain (s : State) (p : ℕ) (producer : Producer) (r f : ℕ) (gate : Flags) : State :=
  match s.db.replications.get r with
  | none => s.finish p (some "gate:DoesNotExist")
  | some rep =>
    match admitReplication s.env s.db producer rep with
    | .error reason => s.finish p (some reason)
    | .ok admission => s.goto p (.admitted producer r f gate s.env.flags admission)

/-- The decision on an intent of a demo follower, under the arming flags of this moment. -/
def decideDemo (s : State) (p : ℕ) (producer : Producer) (r f : ℕ) (gate : Flags)
    (found : DemoAdmission) : State :=
  match s.db.replications.get r with
  | none => s.finish p (some "gate:DoesNotExist")
  | some rep =>
    match s.db.followers.get rep.followerId, s.db.events.get rep.masterEventId with
    | some follower, some event =>
      match decision s.env (copierExecuteDemoArmed s.env.flags) r rep follower event found with
      | .error reason => s.finish p (some reason)
      | .ok d =>
        s.goto p (.commit
          { producer, replicationId := r, followerId := f, replication := rep, gate
            arm := s.env.flags, live := false, decision := d })
    | _, _ => s.finish p (some "gate:DoesNotExist")

/-- The locking read of the authorization. -/
def select (s : State) (p r f : ℕ) (gate flags : Flags) (a : ℕ) : State :=
  match (s.db.followers.get f).bind fun follower =>
      LiveExecution.activeAuthorizationFor s.db.live follower.masterAccountId
        follower.followerAccountId with
  | none => s.finish p (some "no_live_authorization")
  | some (id, _) => s.goto p (.selected r f gate flags a id)

def lockAuthorization (s : State) (p r f : ℕ) (gate flags : Flags) (a id : ℕ) : State :=
  if s.locks (.authorization id) ≠ none then s
  else if (s.db.authorizations.get id).any fun authz => authz.status = .active then
    s.lock p (.authorization id) (.charged r f gate flags a id)
  else s.finish p (some "no_live_authorization")

def decideLive (s : State) (p r f : ℕ) (gate flags : Flags) (a id : ℕ) : State :=
  match s.db.replications.get r, s.db.authorizations.get id with
  | some rep, some authz =>
    match s.db.followers.get rep.followerId, s.db.events.get rep.masterEventId with
    | some follower, some event =>
      match decideOpenLive s.env s.db r rep follower event a id authz with
      | .error reason => s.finish p (some reason)
      | .ok d =>
        s.goto p (.commit
          { producer := .open_, replicationId := r, followerId := f, replication := rep, gate
            arm := flags, live := true, decision := d })
    | _, _ => s.finish p (some "gate:DoesNotExist")
  | _, _ => s.finish p (some "gate:DoesNotExist")

def step (s : State) : Action → State
  | .env e => { s with env := e }
  | .recordEvent k event => { s with db.events := s.db.events.insert k event }
  | .configureFollower k follower =>
    if s.locks (.follower k) = none then { s with db := s.db.configure k follower } else s
  | .recordReplication k rep =>
    if rep.executionJobId = none ∧ k ∉ s.db.replications.keys then
      { s with db.replications := s.db.replications.insert k rep }
    else s
  | .updateReplication r rep =>
    match s.db.replications.get r with
    | none => s
    | some old =>
      if s.locks (.replication r) = none ∧ sameIntent old rep then
        { s with db.replications := s.db.replications.modify r fun _ => rep }
      else s
  | .authorize id authz =>
    if s.locks (.authorization id) = none then { s with db := s.db.authorize id authz } else s
  | .work j status =>
    { s with db.jobs := s.db.jobs.modify j fun job => { job with status } }
  | .scan p producer r seen =>
    match s.pc p with
    | .idle => scan s p producer r seen
    | _ => s
  | .lockReplication p =>
    match s.pc p with
    | .preflight producer r => lockReplication s p producer r
    | _ => s
  | .gate p =>
    match s.pc p with
    | .lockedReplication producer r => gate s p producer r
    | _ => s
  | .lockFollower p =>
    match s.pc p with
    | .gated producer r gate => lockFollower s p producer r gate
    | _ => s
  | .admits p =>
    match s.pc p with
    | .lockedFollower producer r f gate => admitAgain s p producer r f gate
    | _ => s
  | .decide p =>
    match s.pc p with
    | .admitted producer r f gate _ (.demo found) => decideDemo s p producer r f gate found
    | _ => s
  | .select p =>
    match s.pc p with
    | .admitted _ r f gate flags (.live a) => select s p r f gate flags a
    | _ => s
  | .lockAuthorization p =>
    match s.pc p with
    | .selected r f gate flags a id => lockAuthorization s p r f gate flags a id
    | _ => s
  | .decideLive p =>
    match s.pc p with
    | .charged r f gate flags a id => decideLive s p r f gate flags a id
    | _ => s
  | .commit p j =>
    match s.pc p with
    | .commit t =>
      match t.decision.job with
      | none => s.mark p t
      | some job => if j ∈ s.db.jobs.keys then s else s.assign p j t job
    | _ => s
  | .fail p => s.finish p none

/-! ### What a step can do -/

/-- The effects of a step on the sessions and on what they rely on, with what enables each of
them. -/
inductive Effect (s : State) : Action → State → Prop where
  | stutter (a : Action) : Effect s a s
  | env (e : Env) : Effect s (.env e) { s with env := e }
  /-- Other parties change rows that no session has locked. -/
  | others (a : Action) (db : Db)
      (hreps : ∀ r rep, s.db.replications.get r = some rep →
        ∃ rep', db.replications.get r = some rep' ∧ sameIntent rep rep' = true ∧
          (s.locks (.replication r) ≠ none → rep' = rep))
      (hjobs : ∀ j job', db.jobs.get j = some job' → ∃ job, s.db.jobs.get j = some job ∧
        job' = { job with status := job'.status })
      (hkeys : db.jobs.keys = s.db.jobs.keys) : Effect s a { s with db := db }
  | finish (a : Action) (p : ℕ) (reason : Option String) : Effect s a (s.finish p reason)
  | preflight (p : ℕ) (producer : Producer) (r : ℕ) (seen : Db × Env) (hpc : s.pc p = .idle) :
      Effect s (.scan p producer r seen) (s.goto p (.preflight producer r))
  | lockReplication (p : ℕ) (producer : Producer) (r : ℕ) (hpc : s.pc p = .preflight producer r)
      (hfree : s.locks (.replication r) = none) :
      Effect s (.lockReplication p)
        (s.lock p (.replication r) (.lockedReplication producer r))
  | gate (p : ℕ) (producer : Producer) (r : ℕ) (hpc : s.pc p = .lockedReplication producer r)
      (hgate : copierExecuteEnabled s.env.flags = true) :
      Effect s (.gate p) (s.goto p (.gated producer r s.env.flags))
  | lockFollower (p : ℕ) (producer : Producer) (r : ℕ) (gate : Flags) (rep : CopierReplication)
      (hpc : s.pc p = .gated producer r gate) (hrep : s.db.replications.get r = some rep)
      (hfree : s.locks (.follower rep.followerId) = none) :
      Effect s (.lockFollower p)
        (s.lock p (.follower rep.followerId) (.lockedFollower producer r rep.followerId gate))
  | admits (p : ℕ) (producer : Producer) (r f : ℕ) (gate : Flags) (rep : CopierReplication)
      (admission : Admission) (hpc : s.pc p = .lockedFollower producer r f gate)
      (hrep : s.db.replications.get r = some rep)
      (hadm : admitReplication s.env s.db producer rep = .ok admission) :
      Effect s (.admits p) (s.goto p (.admitted producer r f gate s.env.flags admission))
  | decide (p : ℕ) (producer : Producer) (r f : ℕ) (gate flags : Flags) (found : DemoAdmission)
      (rep : CopierReplication) (follower : CopierFollower) (event : MasterEvent) (d : Decision)
      (hpc : s.pc p = .admitted producer r f gate flags (.demo found))
      (hrep : s.db.replications.get r = some rep)
      (hdecision : decision s.env (copierExecuteDemoArmed s.env.flags) r rep follower event
        found = .ok d) :
      Effect s (.decide p) (s.goto p (.commit
        { producer, replicationId := r, followerId := f, replication := rep, gate
          arm := s.env.flags, live := false, decision := d }))
  | select (p : ℕ) (producer : Producer) (r f : ℕ) (gate flags : Flags) (a id : ℕ)
      (hpc : s.pc p = .admitted producer r f gate flags (.live a)) :
      Effect s (.select p) (s.goto p (.selected r f gate flags a id))
  | lockAuthorization (p r f : ℕ) (gate flags : Flags) (a id : ℕ)
      (hpc : s.pc p = .selected r f gate flags a id)
      (hfree : s.locks (.authorization id) = none) :
      Effect s (.lockAuthorization p)
        (s.lock p (.authorization id) (.charged r f gate flags a id))
  | decideLive (p r f : ℕ) (gate flags : Flags) (a id : ℕ) (rep : CopierReplication)
      (follower : CopierFollower) (event : MasterEvent) (authz : CopierLiveAuthorization)
      (d : Decision) (hpc : s.pc p = .charged r f gate flags a id)
      (hrep : s.db.replications.get r = some rep)
      (hdecision : decideOpenLive s.env s.db r rep follower event a id authz = .ok d) :
      Effect s (.decideLive p) (s.goto p (.commit
        { producer := .open_, replicationId := r, followerId := f, replication := rep, gate
          arm := flags, live := true, decision := d }))
  | mark (p j : ℕ) (t : Txn) (hpc : s.pc p = .commit t) (hjob : t.decision.job = none) :
      Effect s (.commit p j) (s.mark p t)
  | assign (p j : ℕ) (t : Txn) (job : ExecutionJob) (hpc : s.pc p = .commit t)
      (hjob : t.decision.job = some job) (hj : j ∉ s.db.jobs.keys) :
      Effect s (.commit p j) (s.assign p j t job)

section Effects

variable {s : State} {p r f : ℕ} {producer : Producer}

lemma sameIntent_refl (rep : CopierReplication) : sameIntent rep rep = true := by
  simp [sameIntent]

lemma effect_of_rows_eq {a : Action} {db : Db} (hreps : db.replications = s.db.replications)
    (hjobs : db.jobs = s.db.jobs) : Effect s a { s with db := db } := by
  refine .others a db (fun r rep hrep => ⟨rep, ?_, sameIntent_refl rep, fun _ => rfl⟩)
    (fun j job hjob => ⟨job, ?_, rfl⟩) (by rw [hjobs])
  · rw [hreps]
    exact hrep
  · rw [← hjobs]
    exact hjob

lemma effect_recordReplication {k : ℕ} {rep : CopierReplication}
    (hk : k ∉ s.db.replications.keys) : Effect s (.recordReplication k rep)
      { s with db.replications := s.db.replications.insert k rep } := by
  refine .others _ { s.db with replications := s.db.replications.insert k rep }
    (fun r old hold => ⟨old, Table.get_insert_of_get hk hold, sameIntent_refl old, fun _ => rfl⟩)
    (fun j job hjob => ⟨job, hjob, rfl⟩) rfl

lemma effect_updateReplication {rep old : CopierReplication}
    (hold : s.db.replications.get r = some old) (hfree : s.locks (.replication r) = none)
    (hsame : sameIntent old rep = true) : Effect s (.updateReplication r rep)
      { s with db.replications := s.db.replications.modify r fun _ => rep } := by
  refine .others _ { s.db with replications := s.db.replications.modify r fun _ => rep }
    (fun k other hother => ?_) (fun j job hjob => ⟨job, hjob, rfl⟩) rfl
  by_cases hk : k = r
  · subst hk
    obtain rfl : other = old := Option.some.inj (hother.symm.trans hold)
    refine ⟨rep, by simp [hother], hsame, fun hlocked => absurd hfree hlocked⟩
  · exact ⟨other, by rw [Table.get_modify_of_ne _ _ hk]; exact hother, sameIntent_refl other,
      fun _ => rfl⟩

lemma effect_work {j : ℕ} {status : JobStatus} : Effect s (.work j status)
    { s with db.jobs := s.db.jobs.modify j fun job => { job with status } } := by
  refine .others _ { s.db with jobs := s.db.jobs.modify j fun job => { job with status } }
    (fun r rep hrep => ⟨rep, hrep, sameIntent_refl rep, fun _ => rfl⟩)
    (fun k job' hjob => ?_) (Table.keys_modify _ _ _)
  dsimp only at hjob
  rw [Table.get_modify] at hjob
  split_ifs at hjob with hk
  · obtain ⟨job, hget, rfl⟩ := Option.map_eq_some_iff.mp hjob
    exact ⟨job, by rw [hk]; exact hget, rfl⟩
  · exact ⟨job', hjob, rfl⟩

lemma effect_scan {seen : Db × Env} (hpc : s.pc p = .idle) :
    Effect s (.scan p producer r seen) (scan s p producer r seen) := by
  unfold scan
  split_ifs
  · exact .finish _ p _
  · split
    · exact .stutter _
    · split
      · exact .finish _ p _
      · exact .preflight p producer r seen hpc

lemma effect_lockReplication (hpc : s.pc p = .preflight producer r) :
    Effect s (.lockReplication p) (lockReplication s p producer r) := by
  unfold lockReplication
  split_ifs with hfree
  · exact .stutter _
  · exact .finish _ p _
  · exact .lockReplication p producer r hpc (not_not.mp hfree)

lemma effect_gate (hpc : s.pc p = .lockedReplication producer r) :
    Effect s (.gate p) (gate s p producer r) := by
  unfold gate
  split_ifs with hgate
  · exact .finish _ p _
  · exact .gate p producer r hpc (by simpa using hgate)

variable {gate flags : Flags}

lemma effect_lockFollower (hpc : s.pc p = .gated producer r gate) :
    Effect s (.lockFollower p) (lockFollower s p producer r gate) := by
  unfold lockFollower
  split
  · exact .finish _ p _
  · rename_i rep hrep
    split_ifs with hfree
    · exact .stutter _
    · exact .lockFollower p producer r gate rep hpc hrep (not_not.mp hfree)

lemma effect_admitAgain (hpc : s.pc p = .lockedFollower producer r f gate) :
    Effect s (.admits p) (admitAgain s p producer r f gate) := by
  unfold admitAgain
  split
  · exact .finish _ p _
  · rename_i rep hrep
    split
    · exact .finish _ p _
    · rename_i admission hadm
      exact .admits p producer r f gate rep admission hpc hrep hadm

lemma effect_decideDemo {found : DemoAdmission}
    (hpc : s.pc p = .admitted producer r f gate flags (.demo found)) :
    Effect s (.decide p) (decideDemo s p producer r f gate found) := by
  unfold decideDemo
  split
  · exact .finish _ p _
  · rename_i rep hrep
    split
    · rename_i follower event _ _
      split
      · exact .finish _ p _
      · rename_i d hdecision
        exact .decide p producer r f gate flags found rep follower event d hpc hrep hdecision
    · exact .finish _ p _

lemma effect_select {a : ℕ} (hpc : s.pc p = .admitted producer r f gate flags (.live a)) :
    Effect s (.select p) (select s p r f gate flags a) := by
  unfold select
  split
  · exact .finish _ p _
  · exact .select p producer r f gate flags a _ hpc

lemma effect_lockAuthorization {a id : ℕ} (hpc : s.pc p = .selected r f gate flags a id) :
    Effect s (.lockAuthorization p) (lockAuthorization s p r f gate flags a id) := by
  unfold lockAuthorization
  split_ifs with hfree
  · exact .stutter _
  · exact .lockAuthorization p r f gate flags a id hpc (not_not.mp hfree)
  · exact .finish _ p _

lemma effect_decideLive {a id : ℕ} (hpc : s.pc p = .charged r f gate flags a id) :
    Effect s (.decideLive p) (decideLive s p r f gate flags a id) := by
  unfold decideLive
  split
  · rename_i rep authz hrep _
    split
    · rename_i follower event _ _
      split
      · exact .finish _ p _
      · rename_i d hdecision
        exact .decideLive p r f gate flags a id rep follower event authz d hpc hrep hdecision
    · exact .finish _ p _
  · exact .finish _ p _

/-- **Every step has one of the effects.** -/
theorem step_effect (s : State) (a : Action) : Effect s a (step s a) := by
  cases a with
  | env e => exact .env e
  | recordEvent k event => exact effect_of_rows_eq rfl rfl
  | configureFollower k follower =>
    simp only [step]
    split_ifs
    · exact effect_of_rows_eq rfl rfl
    · exact .stutter _
  | recordReplication k rep =>
    simp only [step]
    split_ifs with h
    · exact effect_recordReplication h.2
    · exact .stutter _
  | updateReplication r rep =>
    simp only [step]
    split
    · exact .stutter _
    · rename_i old hold
      split_ifs with h
      · exact effect_updateReplication hold h.1 h.2
      · exact .stutter _
  | authorize id authz =>
    simp only [step]
    split_ifs
    · exact effect_of_rows_eq rfl rfl
    · exact .stutter _
  | work j status => exact effect_work
  | scan p producer r seen =>
    simp only [step]
    split
    · rename_i hpc
      exact effect_scan hpc
    · exact .stutter _
  | lockReplication p =>
    simp only [step]
    split
    · rename_i producer r hpc
      exact effect_lockReplication hpc
    · exact .stutter _
  | gate p =>
    simp only [step]
    split
    · rename_i producer r hpc
      exact effect_gate hpc
    · exact .stutter _
  | lockFollower p =>
    simp only [step]
    split
    · rename_i producer r gate hpc
      exact effect_lockFollower hpc
    · exact .stutter _
  | admits p =>
    simp only [step]
    split
    · rename_i producer r f gate hpc
      exact effect_admitAgain hpc
    · exact .stutter _
  | decide p =>
    simp only [step]
    split
    · rename_i producer r f gate flags found hpc
      exact effect_decideDemo hpc
    · exact .stutter _
  | select p =>
    simp only [step]
    split
    · rename_i producer r f gate flags a hpc
      exact effect_select hpc
    · exact .stutter _
  | lockAuthorization p =>
    simp only [step]
    split
    · rename_i r f gate flags a id hpc
      exact effect_lockAuthorization hpc
    · exact .stutter _
  | decideLive p =>
    simp only [step]
    split
    · rename_i r f gate flags a id hpc
      exact effect_decideLive hpc
    · exact .stutter _
  | commit p j =>
    simp only [step]
    split
    · rename_i t hpc
      split
      · rename_i hjob
        exact .mark p j t hpc hjob
      · rename_i job hjob
        split_ifs with hj
        · exact .stutter _
        · exact .assign p j t job hpc hjob hj
    · exact .stutter _
  | fail p => exact .finish _ p none

/-! ### The locks -/

/-- The lock table says what the sessions hold. -/
def LocksHeld (s : State) : Prop := Locks.Held (fun p row => row ∈ (s.pc p).rows) s.locks

lemma goto_pc_self (p : ℕ) (pc : Pc) : (s.goto p pc).pc p = pc := Function.update_self ..

lemma goto_pc_of_ne {q : ℕ} (pc : Pc) (h : q ≠ p) : (s.goto p pc).pc q = s.pc q :=
  Function.update_of_ne h ..

lemma locksHeld_init (env : Env) : LocksHeld (init env) := by
  refine Locks.held_free.congr fun q r => ?_
  simp [init, Pc.rows]

lemma LocksHeld.goto {pc : Pc} (h : LocksHeld s) (hrows : pc.rows = (s.pc p).rows) :
    LocksHeld (s.goto p pc) :=
  Locks.Held.moved (fun (pc : Pc) row => row ∈ pc.rows) h fun r => by rw [hrows]

lemma LocksHeld.lock {row : Row} {pc : Pc} (h : LocksHeld s) (hfree : s.locks row = none)
    (hrows : ∀ r, r ∈ pc.rows ↔ r ∈ (s.pc p).rows ∨ r = row) : LocksHeld (s.lock p row pc) :=
  Locks.Held.moved_take (fun (pc : Pc) row => row ∈ pc.rows) h hfree hrows

lemma LocksHeld.finish {reason : Option String} (h : LocksHeld s) :
    LocksHeld (s.finish p reason) :=
  Locks.Held.moved_release (fun (pc : Pc) row => row ∈ pc.rows) h fun _ => List.not_mem_nil

lemma LocksHeld.finish_none (h : LocksHeld s) : LocksHeld (s.finish p none) := h.finish

end Effects

/-! ### What the sessions rely on -/

/-- Is the transaction armed?  Live orders have an arm of their own. -/
def Txn.armed (t : Txn) : Bool :=
  if t.live then copierLiveExecuteEnabled t.arm else copierExecuteDemoArmed t.arm

/-- What a transaction has checked, and what it writes. -/
structure Txn.Sound (t : Txn) : Prop where
  intent : t.replication.executionJobId = none
  op : t.replication.requestedOp = t.producer.requestedOp
  gate : copierExecuteEnabled t.gate = true
  fits : t.decision.Fits t.replicationId t.replication (jobTypeFor t.producer t.armed)

/-- The intent `r` waits for a job of the producer. -/
def Waiting (db : Db) (producer : Producer) (r : ℕ) : Prop :=
  ∃ rep, db.replications.get r = some rep ∧ rep.executionJobId = none ∧
    rep.requestedOp = producer.requestedOp

/-- What a session relies on. -/
def Pc.Sound (db : Db) : Pc → Prop
  | .idle | .preflight .. | .lockedReplication .. => True
  | .gated _ _ gate | .lockedFollower _ _ _ gate => copierExecuteEnabled gate = true
  | .admitted producer r _ gate flags admission =>
    copierExecuteEnabled gate = true ∧ Waiting db producer r ∧ admission.producer = producer ∧
      ∀ a, admission = .live a → copierLiveExecuteEnabled flags = true
  | .selected r _ gate flags _ _ | .charged r _ gate flags _ _ =>
    copierExecuteEnabled gate = true ∧ Waiting db .open_ r ∧ copierLiveExecuteEnabled flags = true
  | .commit t => t.Sound ∧ db.replications.get t.replicationId = some t.replication

def Holds (db : Db) (j : ℕ) (t : Txn) : Prop :=
  ∃ rep, db.replications.get t.replicationId = some rep ∧ rep.executionJobId = some j ∧
    rep.requestedOp = t.producer.requestedOp

structure Inv (s : State) : Prop where
  locks : LocksHeld s
  sound : ∀ p, (s.pc p).Sound s.db
  created : ∀ e ∈ s.created, e.2.Sound ∧ Holds s.db e.1 e.2
  once : (s.created.map fun e => e.2.replicationId).Nodup
  jobs : ∀ j job, s.db.jobs.get j = some job → ∃ t, (j, t) ∈ s.created ∧
    ∃ made, t.decision.job = some made ∧ job = { made with status := job.status }

lemma inv_init (env : Env) : Inv (init env) where
  locks := locksHeld_init env
  sound := fun _ => trivial
  created := fun _ he => nomatch he
  once := List.nodup_nil
  jobs := fun _ _ hjob => nomatch hjob

section Preservation

variable {s : State} {p : ℕ} {db : Db}

/-- A session relies only on intents that it has locked. -/
lemma Pc.Sound.congr {pc : Pc} (h : pc.Sound db) {db' : Db}
    (hrows : ∀ r rep, Row.replication r ∈ pc.rows → db.replications.get r = some rep →
      db'.replications.get r = some rep) : pc.Sound db' := by
  have hwaiting : ∀ producer r, Row.replication r ∈ pc.rows → Waiting db producer r →
      Waiting db' producer r := by
    rintro producer r hr ⟨rep, hrep, hrest⟩
    exact ⟨rep, hrows r rep hr hrep, hrest⟩
  cases pc with
  | admitted producer r f gate flags admission =>
    exact ⟨h.1, hwaiting _ _ (by simp [Pc.rows]) h.2.1, h.2.2⟩
  | selected r f gate flags a id => exact ⟨h.1, hwaiting _ _ (by simp [Pc.rows]) h.2.1, h.2.2⟩
  | charged r f gate flags a id => exact ⟨h.1, hwaiting _ _ (by simp [Pc.rows]) h.2.1, h.2.2⟩
  | commit t => exact ⟨h.1, hrows _ _ (by simp [Pc.rows]) h.2⟩
  | _ => exact h

/-- After a move of one session the others rely on what they relied on. -/
lemma Inv.sound_goto {pc : Pc} (h : Inv s) (hsound : pc.Sound s.db) (q : ℕ) :
    ((s.goto p pc).pc q).Sound s.db := by
  by_cases hq : q = p
  · rw [hq, goto_pc_self]
    exact hsound
  · rw [goto_pc_of_ne pc hq]
    exact h.sound q

/-- A session moves on. -/
lemma Inv.goto {pc : Pc} (h : Inv s) (hrows : pc.rows = (s.pc p).rows) (hsound : pc.Sound s.db) :
    Inv (s.goto p pc) :=
  { h with
    locks := h.locks.goto hrows
    sound := h.sound_goto hsound }

lemma Inv.lock {row : Row} {pc : Pc} (h : Inv s) (hfree : s.locks row = none)
    (hrows : ∀ r, r ∈ pc.rows ↔ r ∈ (s.pc p).rows ∨ r = row) (hsound : pc.Sound s.db) :
    Inv (s.lock p row pc) :=
  { h with
    locks := h.locks.lock hfree hrows
    sound := h.sound_goto hsound }

/-- A session ends without writes. -/
lemma Inv.finish {reason : Option String} (h : Inv s) : Inv (s.finish p reason) :=
  { h with
    locks := h.locks.finish
    sound := h.sound_goto (show Pc.Sound s.db .idle from trivial) }

lemma Inv.others (h : Inv s)
    (hreps : ∀ r rep, s.db.replications.get r = some rep →
      ∃ rep', db.replications.get r = some rep' ∧ sameIntent rep rep' = true ∧
        (s.locks (.replication r) ≠ none → rep' = rep))
    (hjobs : ∀ j job', db.jobs.get j = some job' → ∃ job, s.db.jobs.get j = some job ∧
      job' = { job with status := job'.status }) : Inv { s with db := db } where
  locks := h.locks
  sound := by
    intro q
    refine (h.sound q).congr fun r rep hr hrep => ?_
    obtain ⟨rep', hrep', -, hsame⟩ := hreps r rep hrep
    have hlocked : s.locks (.replication r) ≠ none := by
      rw [(h.locks (.replication r) q).mpr hr]
      exact Option.some_ne_none q
    rw [hrep', hsame hlocked]
  created := by
    intro e he
    obtain ⟨hsound, rep, hrep, hjob, hop⟩ := h.created e he
    obtain ⟨rep', hrep', hsame, -⟩ := hreps _ rep hrep
    simp only [sameIntent, decide_eq_true_eq] at hsame
    exact ⟨hsound, rep', hrep', hsame.1.trans hjob, hsame.2.1.trans hop⟩
  once := h.once
  jobs := by
    intro j job' hjob'
    obtain ⟨job, hjob, heq⟩ := hjobs j job' hjob'
    obtain ⟨t, ht, made, hmade, hmadejob⟩ := h.jobs j job hjob
    refine ⟨t, ht, made, hmade, ?_⟩
    rw [heq, hmadejob]

lemma Inv.write (h : Inv s) {t : Txn} (db : Db) (hpc : s.pc p = .commit t)
    (hrows : ∀ r, r ≠ t.replicationId → db.replications.get r = s.db.replications.get r) :
    (∀ q, ((s.goto p .idle).pc q).Sound db) ∧ ∀ e ∈ s.created,
      e.2.replicationId ≠ t.replicationId ∧ e.2.Sound ∧ Holds db e.1 e.2 := by
  have hcommit := h.sound p
  rw [hpc] at hcommit
  constructor
  · intro q
    by_cases hq : q = p
    · rw [hq, goto_pc_self]
      trivial
    · rw [goto_pc_of_ne .idle hq]
      refine (h.sound q).congr fun r rep hr hrep => ?_
      have hne : r ≠ t.replicationId := by
        rintro rfl
        exact hq (h.locks.unique hr (by rw [hpc]; exact List.mem_cons_self))
      rw [hrows r hne]
      exact hrep
  · intro e he
    obtain ⟨hsound, rep, hrep, hjob, hop⟩ := h.created e he
    have hne : e.2.replicationId ≠ t.replicationId := by
      intro heq
      -- the locked intent has no job yet
      rw [heq, hcommit.2] at hrep
      obtain rfl := Option.some.inj hrep
      rw [hcommit.1.intent] at hjob
      cases hjob
    exact ⟨hne, hsound, rep, by rw [hrows _ hne]; exact hrep, hjob, hop⟩

/-- A decision without a job is committed. -/
lemma Inv.mark (h : Inv s) {t : Txn} (hpc : s.pc p = .commit t) : Inv (s.mark p t) := by
  obtain ⟨hsound, hcreated⟩ := h.write (s.db.mark t) hpc fun r hr =>
    Table.get_modify_of_ne _ _ hr
  exact {
    locks := h.locks.finish_none
    sound := hsound
    created := fun e he => (hcreated e he).2
    once := h.once
    jobs := h.jobs }

lemma replications_assign (db : Db) (j : ℕ) (t : Txn) (job : ExecutionJob) :
    (db.assign j t job).replications = db.replications.modify t.replicationId fun _ =>
      { t.decision.row with executionJobId := some j } := by
  unfold Db.assign Db.charge
  cases t.decision.charge <;> rfl

lemma Inv.assign (h : Inv s) {t : Txn} {j : ℕ} {job : ExecutionJob} (hpc : s.pc p = .commit t)
    (hjob : t.decision.job = some job) (hj : j ∉ s.db.jobs.keys) : Inv (s.assign p j t job) := by
  have hcommit := h.sound p
  rw [hpc] at hcommit
  obtain ⟨hsound, hcreated⟩ := h.write (s.db.assign j t job) hpc fun r hr => by
    rw [replications_assign]
    exact Table.get_modify_of_ne _ _ hr
  have hrow : (s.db.assign j t job).replications.get t.replicationId
      = some { t.decision.row with executionJobId := some j } := by
    rw [replications_assign, Table.get_modify_self, hcommit.2]
    rfl
  exact {
    locks := h.locks.finish_none
    sound := hsound
    created := by
      intro e he
      rcases List.mem_append.mp he with hold | hnew
      · exact (hcreated e hold).2
      · obtain rfl := List.mem_singleton.mp hnew
        exact ⟨hcommit.1, _, hrow, rfl, hcommit.1.fits.op.trans hcommit.1.op⟩
    once := by
      show ((s.created ++ [(j, t)]).map fun e => e.2.replicationId).Nodup
      rw [List.map_append, List.nodup_append]
      refine ⟨h.once, List.nodup_singleton _, ?_⟩
      intro r hr r' hr'
      obtain ⟨e, he, rfl⟩ := List.mem_map.mp hr
      rw [List.map_singleton, List.mem_singleton] at hr'
      rw [hr']
      exact (hcreated e he).1
    jobs := by
      intro k job' hjob'
      have hget : (s.db.jobs.insert j job).get k = some job' := hjob'
      rw [Table.get_insert job hj] at hget
      split_ifs at hget with hk
      · obtain rfl := Option.some.inj hget
        exact ⟨t, by rw [hk]; exact List.mem_append_right _ (List.mem_singleton_self _),
          job, hjob, rfl⟩
      · obtain ⟨t', ht', hmade⟩ := h.jobs k job' hget
        exact ⟨t', List.mem_append_left _ ht', hmade⟩ }

/-- Every step keeps the invariant. -/
theorem inv_step (s : State) (a : Action) (h : Inv s) : Inv (step s a) := by
  have heff := step_effect s a
  revert heff
  generalize step s a = s'
  intro heff
  cases heff with
  | stutter => exact h
  | env e => exact ⟨h.locks, h.sound, h.created, h.once, h.jobs⟩
  | others a db hreps hjobs hkeys => exact h.others hreps hjobs
  | finish a p reason => exact h.finish
  | preflight p producer r seen hpc => exact h.goto (by rw [hpc]; rfl) trivial
  | lockReplication p producer r hpc hfree =>
    exact h.lock hfree (fun row => by simp [hpc, Pc.rows]) trivial
  | gate p producer r hpc hgate => exact h.goto (by rw [hpc]; rfl) hgate
  | lockFollower p producer r gate rep hpc hrep hfree =>
    have hsound := h.sound p
    rw [hpc] at hsound
    exact h.lock hfree (fun row => by simp [hpc, Pc.rows]) hsound
  | admits p producer r f gate rep admission hpc hrep hadm =>
    have hsound := h.sound p
    rw [hpc] at hsound
    obtain ⟨hadmissible, hproducer, hlive⟩ := of_admitReplication hadm
    exact h.goto (by rw [hpc]; rfl)
      ⟨hsound, ⟨rep, hrep, hadmissible.noJob, hadmissible.op⟩, hproducer, hlive⟩
  | decide p producer r f gate flags found rep follower event d hpc hrep hdecision =>
    have hsound := h.sound p
    rw [hpc] at hsound
    obtain ⟨hgate, ⟨rep', hrep', hnone, hop⟩, hproducer, -⟩ := hsound
    obtain rfl : rep' = rep := Option.some.inj (hrep'.symm.trans hrep)
    have hfits := of_decision hdecision
    refine h.goto ?_ ⟨⟨hnone, hop, hgate, ?_⟩, hrep⟩
    · rw [hpc]
      simp [Pc.rows, charge_of_decision hdecision]
    · obtain rfl : found.producer = producer := hproducer
      exact hfits
  | select p producer r f gate flags a id hpc =>
    have hsound := h.sound p
    rw [hpc] at hsound
    obtain ⟨hgate, hwaiting, hproducer, hlive⟩ := hsound
    obtain rfl : Producer.open_ = producer := hproducer
    exact h.goto (by rw [hpc]; rfl) ⟨hgate, hwaiting, hlive a rfl⟩
  | lockAuthorization p r f gate flags a id hpc hfree =>
    have hsound := h.sound p
    rw [hpc] at hsound
    exact h.lock hfree (fun row => by simp [hpc, Pc.rows, or_assoc]) hsound
  | decideLive p r f gate flags a id rep follower event authz d hpc hrep hdecision =>
    have hsound := h.sound p
    rw [hpc] at hsound
    obtain ⟨hgate, ⟨rep', hrep', hnone, hop⟩, hlive⟩ := hsound
    obtain rfl : rep' = rep := Option.some.inj (hrep'.symm.trans hrep)
    obtain ⟨hfits, hcharge⟩ := of_decideOpenLive hdecision
    refine h.goto ?_ ⟨⟨hnone, hop, hgate, ?_⟩, hrep⟩
    · rw [hpc]
      simp [Pc.rows, hcharge]
    · simpa [Txn.armed, hlive, jobTypeFor] using hfits
  | mark p j t hpc hjob => exact h.mark hpc
  | assign p j t job hpc hjob hj => exact h.assign hpc hjob hj

end Preservation

/-! ### Reads under the lock -/

/-- In some state of the run session `p` held the lock of the intent `r`, and these were the
flags. -/
def ReadUnderLock (env : Env) (as : List Action) (p r : ℕ) (flags : Flags) : Prop :=
  Visited step (init env) as fun s => s.locks (.replication r) = some p ∧ s.env.flags = flags

/-- The flags that a session carries were read under the lock of its intent. -/
def Pc.Read (env : Env) (as : List Action) (p : ℕ) : Pc → Prop
  | .idle | .preflight .. | .lockedReplication .. => True
  | .gated _ r gate | .lockedFollower _ r _ gate => ReadUnderLock env as p r gate
  | .admitted _ r _ gate flags _ | .selected r _ gate flags _ _ | .charged r _ gate flags _ _ =>
    ReadUnderLock env as p r gate ∧ ReadUnderLock env as p r flags
  | .commit t => ReadUnderLock env as p t.replicationId t.gate ∧
      ReadUnderLock env as p t.replicationId t.arm

/-- What decides a transaction of session `p`: flags that held while it had locked the intent. -/
structure Txn.Decided (env : Env) (as : List Action) (p : ℕ) (t : Txn) : Prop where
  op : t.replication.requestedOp = t.producer.requestedOp
  gate : copierExecuteEnabled t.gate = true
  jobType : t.decision.job.map (·.jobType) = jobTypeFor t.producer t.armed
  gateRead : ReadUnderLock env as p t.replicationId t.gate
  armRead : ReadUnderLock env as p t.replicationId t.arm

section Reads

variable {env : Env} {as : List Action} {p : ℕ}

lemma ReadUnderLock.concat {r : ℕ} {flags : Flags} (h : ReadUnderLock env as p r flags)
    (a : Action) : ReadUnderLock env (as ++ [a]) p r flags := Visited.append h [a]

lemma Pc.Read.concat {x : Pc} (h : x.Read env as p) (a : Action) :
    x.Read env (as ++ [a]) p := by
  cases x with
  | idle | preflight | lockedReplication => trivial
  | gated | lockedFollower => exact ReadUnderLock.concat h a
  | admitted | selected | charged | commit => exact ⟨h.1.concat a, h.2.concat a⟩

/-- What the sessions and the created jobs know of the run behind them. -/
def Known (env : Env) (as : List Action) (s : State) : Prop :=
  (∀ p, (s.pc p).Read env as p) ∧ ∀ e ∈ s.created, ∃ p, (Pc.commit e.2).Read env as p

lemma known_init : Known env [] (init env) := by
  constructor
  · intro p
    trivial
  · intro e he
    cases he

lemma read_now {r : ℕ} (h : Inv (run step (init env) as))
    (hr : Row.replication r ∈ ((run step (init env) as).pc p).rows) (a : Action) :
    ReadUnderLock env (as ++ [a]) p r (run step (init env) as).env.flags :=
  Visited.append (Visited.last ⟨(h.locks (.replication r) p).mpr hr, rfl⟩) [a]

/-- A session that moves on with what it knows. -/
lemma Known.goto {s : State} {a : Action} (h : Known env as s) (p : ℕ) (pc : Pc)
    (hpc : pc.Read env (as ++ [a]) p) {t : State} (hsame : t.pc = (s.goto p pc).pc)
    (hcreated : t.created = s.created) : Known env (as ++ [a]) t := by
  constructor
  · intro q
    rw [hsame]
    by_cases hq : q = p
    · rw [hq, goto_pc_self]
      exact hpc
    · rw [goto_pc_of_ne pc hq]
      exact (h.1 q).concat a
  · intro e he
    rw [hcreated] at he
    obtain ⟨q, hq⟩ := h.2 e he
    exact ⟨q, hq.concat a⟩

lemma known_step (as : List Action) (a : Action) (h : Known env as (run step (init env) as)) :
    Known env (as ++ [a]) (step (run step (init env) as) a) := by
  have hinv : Inv (run step (init env) as) := run_invariant inv_step (inv_init env) as
  have heff := step_effect (run step (init env) as) a
  have hnow := fun {p r : ℕ} (hr : Row.replication r ∈ ((run step (init env) as).pc p).rows) =>
    read_now hinv hr a
  generalize run step (init env) as = s at h heff hnow ⊢
  revert heff
  generalize step s a = s'
  intro heff
  have hsame : Known env (as ++ [a]) s :=
    ⟨fun q => (h.1 q).concat a, fun e he =>
      let ⟨q, hq⟩ := h.2 e he
      ⟨q, hq.concat a⟩⟩
  cases heff with
  | stutter | env | others => exact hsame
  | finish a p reason => exact h.goto p .idle trivial rfl rfl
  | preflight p producer r seen hpc =>
    exact h.goto p (.preflight producer r) trivial rfl rfl
  | lockReplication p producer r hpc hfree =>
    exact h.goto p (.lockedReplication producer r) trivial rfl rfl
  | gate p producer r hpc hgate =>
    exact h.goto p (.gated producer r s.env.flags)
      (hnow (by rw [hpc]; exact List.mem_cons_self)) rfl rfl
  | lockFollower p producer r gate rep hpc hrep hfree =>
    have hread := h.1 p
    rw [hpc] at hread
    exact h.goto p (.lockedFollower producer r rep.followerId gate)
      (ReadUnderLock.concat hread _) rfl rfl
  | admits p producer r f gate rep admission hpc hrep hadm =>
    have hread := h.1 p
    rw [hpc] at hread
    exact h.goto p (.admitted producer r f gate s.env.flags admission)
      ⟨ReadUnderLock.concat hread _, hnow (by rw [hpc]; exact List.mem_cons_self)⟩ rfl rfl
  | decide p producer r f gate flags found rep follower event d hpc hrep hdecision =>
    have hread := h.1 p
    rw [hpc] at hread
    exact h.goto p (.commit _)
      ⟨hread.1.concat _, hnow (by rw [hpc]; exact List.mem_cons_self)⟩ rfl rfl
  | select p producer r f gate flags a' id hpc =>
    have hread := h.1 p
    rw [hpc] at hread
    exact h.goto p (.selected r f gate flags a' id)
      ⟨hread.1.concat _, hread.2.concat _⟩ rfl rfl
  | lockAuthorization p r f gate flags a' id hpc hfree =>
    have hread := h.1 p
    rw [hpc] at hread
    exact h.goto p (.charged r f gate flags a' id)
      ⟨hread.1.concat _, hread.2.concat _⟩ rfl rfl
  | decideLive p r f gate flags a' id rep follower event authz d hpc hrep hdecision =>
    have hread := h.1 p
    rw [hpc] at hread
    exact h.goto p (.commit _) ⟨hread.1.concat _, hread.2.concat _⟩ rfl rfl
  | mark p j t hpc hjob => exact h.goto p .idle trivial rfl rfl
  | assign p j t job hpc hjob hj =>
    have hread := h.1 p
    rw [hpc] at hread
    constructor
    · exact (h.goto p .idle (t := s.finish p none) trivial rfl rfl).1
    · intro e he
      rcases List.mem_append.mp he with hold | hnew
      · exact hsame.2 e hold
      · rw [List.mem_singleton.mp hnew]
        exact ⟨p, Pc.Read.concat (x := .commit t) hread _⟩

end Reads

/-! ### One job per intent -/

/-- What every run of the producers keeps. -/
structure OneJobPerIntent (env : Env) (as : List Action) : Prop where
  /-- No intent is given a second job. -/
  once : ((run step (init env) as).created.map fun e => e.2.replicationId).Nodup
  /-- Every job of the table belongs to one intent, which holds it, and has a type of its
  operation. -/
  jobs : ∀ j job, (run step (init env) as).db.jobs.get j = some job →
    ∃ t, (j, t) ∈ (run step (init env) as).created ∧
      job.payload.copierReplicationId = t.replicationId ∧
      Holds (run step (init env) as).db j t ∧ some job.jobType = jobTypeFor t.producer t.armed
  /-- The flags under the lock have decided every job that was created. -/
  created : ∀ e ∈ (run step (init env) as).created, ∃ p, e.2.Decided env as p
  /-- They decide every transaction that is about to commit, with a job or without. -/
  committing : ∀ p t, (run step (init env) as).pc p = .commit t → t.Decided env as p

/-- **One job per intent.**  In every run of the four producers an intent gets at most one job, of
the type of its operation; and whether it gets one, and which, is decided by the flags that hold
while the intent is locked: with the gate of the producers off there is no job, and without the
arm there is none either, except the suppressed job of an opening. -/
theorem one_job_per_intent (env : Env) (as : List Action) : OneJobPerIntent env as := by
  have hinv : Inv (run step (init env) as) := run_invariant inv_step (inv_init env) as
  have hknown : Known env as (run step (init env) as) :=
    run_history (Q := Known env) known_init known_step as
  have hdecided : ∀ {p t}, t.Sound → (Pc.commit t).Read env as p → t.Decided env as p :=
    fun hsound hread => ⟨hsound.op, hsound.gate, hsound.fits.jobType, hread.1, hread.2⟩
  constructor
  · exact hinv.once
  · intro j job hjob
    obtain ⟨t, ht, made, hmade, hsame⟩ := hinv.jobs j job hjob
    obtain ⟨hsound, hholds⟩ := hinv.created _ ht
    have htype := hsound.fits.jobType
    have hreplication := hsound.fits.replication made hmade
    rw [hmade] at htype
    refine ⟨t, ht, ?_, hholds, ?_⟩
    · rw [hsame]
      exact hreplication
    · rw [hsame]
      exact htype
  · intro e he
    obtain ⟨p, hread⟩ := hknown.2 e he
    exact ⟨p, hdecided (hinv.created e he).1 hread⟩
  · intro p t hpc
    have hsound := hinv.sound p
    have hread := hknown.1 p
    rw [hpc] at hsound hread
    exact hdecided hsound.1 hread

/-! ### An opening that is not armed -/

/-- A demo master and a demo follower of one owner, with the producers on and not armed. -/
def sampleEnv : Env where
  toEnv := { LiveExecution.sampleEnv 100 with
    flags := { Flags.allOn with executeDemoArmed := false, liveExecuteEnabled := false } }
  world := { LiveExecution.sampleWorld with
    accounts := fun k => { LiveExecution.sampleWorld.accounts k with
      brokerServer := some ⟨if k = 1 then "Alpha-Live" else "Beta-Live", .demo⟩
      isDemo := true } }
  positions _ := ⟨true, "ok", [], none⟩

/-- An opening of the master is recorded as an intent, and one session produces it. -/
def unarmedOpen : List Action :=
  [.recordEvent 1 ⟨LiveExecution.sampleEvent 1, 0, none, none⟩,
    .configureFollower 1 ⟨1, 2, true, { mode := .multiplier }⟩,
    .recordReplication 1
      ⟨{ LiveExecution.sampleIntent 1 with targetVolume := some 1 }, none, .blank⟩]

/-- **An opening gets a job though nothing is armed.**  In no state of the run the arming flag of
the producers is on, and yet the intent gets its job, of the suppressed type. -/
theorem unarmed_open_gets_job :
    let before := run step (init sampleEnv) unarmedOpen
    let after := run step before [.scan 1 .open_ 1 (before.db, sampleEnv), .lockReplication 1,
      .gate 1, .lockFollower 1, .admits 1, .decide 1, .commit 1 1]
    copierExecuteDemoArmed after.env.flags = false ∧
      after.created.map (fun e => (e.1, e.2.replicationId, copierExecuteDemoArmed e.2.arm))
        = [(1, 1, false)] ∧
      (after.db.jobs.get 1).map (·.jobType) = some .placeOrderShadow := by
  decide +kernel

end ExecutionProducer
end GuvFX
