/-
# The order of the copied level changes

A change of the protective levels is refused while an earlier one is in flight for the same ticket, and the
refused intent keeps waiting.  Nothing looks at the order of the master's events: an intent that has been
refused is admitted later, when a newer one may already have been requested.
-/
import GuvFX.TradeCopier.ProducerSystem

namespace GuvFX
namespace ExecutionProducer

open Checks Runs
open Consumer (JobType JobStatus RequestedOp ReplicationStatus)
open LiveExecution (CopierFollower CopierLiveAuthorization Row)

/-! ### Intents of one position -/

/-- The follower and the position of the master that an intent is about. -/
def positionOf (db : Db) (rep : CopierReplication) : Option (ℕ × ℕ × ℤ) :=
  (db.events.get rep.masterEventId).map fun event =>
    (rep.followerId, event.masterAccountId, event.positionTicket)

/-- The event of the one intent comes before the event of the other. -/
def before (db : Db) (rep rep' : CopierReplication) : Bool :=
  (db.events.get rep.masterEventId).any fun event =>
    (db.events.get rep'.masterEventId).any fun event' => event.sequence < event'.sequence

/-- The intent waits for a job, and neither its levels nor its event refuse it for good. -/
def due (env : Env) (db : Db) (rep : CopierReplication) : Bool :=
  rep.requestedOp = .modifySltp ∧ rep.executionJobId = none ∧ rep.status = .shadowRecorded ∧
    rep.sltpTranslationOk ∧ (db.events.get rep.masterEventId).any fun event =>
      slWeakeningReason event (env.world.masterPosition rep.masterEventId) = none

/-- The account and the ticket of the level change that a transaction requests. -/
def Txn.modifies (t : Txn) : Option (ℕ × ℤ) :=
  if t.producer = .modify then
    t.decision.job.bind fun job => job.payload.ticket?.map fun ticket => (job.accountId, ticket)
  else none

/-- The level changes requested for one ticket are in the order of the master's events. -/
def ModifiesInOrder (s : State) : Prop :=
  s.created.Pairwise fun e e' => ∀ key, e.2.modifies = some key → e'.2.modifies = some key →
    before s.db e.2.replication e'.2.replication = true

/-! ### The condition -/

/-- No older change of the position is left behind by the transaction, and its ticket has only been used for
this position. -/
def NoneLeftBehind (s : State) (t : Txn) : Prop :=
  (∀ e ∈ s.db.replications.rows, e.1 ≠ t.replicationId → due s.env s.db e.2 = true →
    positionOf s.db e.2 = positionOf s.db t.replication → before s.db t.replication e.2 = true) ∧
  ∀ e ∈ s.created, e.2.modifies = t.modifies →
    positionOf s.db e.2.replication = positionOf s.db t.replication

instance (s : State) (t : Txn) : Decidable (NoneLeftBehind s t) :=
  inferInstanceAs (Decidable (_ ∧ _))

/-- An intent is recorded after its event, and no newer change of its position has been requested by then. -/
def RecordedInOrder (s : State) (rep : CopierReplication) : Prop :=
  rep.requestedOp = .modifySltp →
    (s.db.events.get rep.masterEventId).isSome = true ∧
    ∀ e ∈ s.db.replications.rows, e.2.requestedOp = .modifySltp → e.2.executionJobId ≠ none →
      positionOf s.db e.2 = positionOf s.db rep → before s.db e.2 rep = true

instance (s : State) (rep : CopierReplication) : Decidable (RecordedInOrder s rep) :=
  inferInstanceAs (Decidable (_ → _))

def CommitsInOrder (s : State) : Pc → Prop
  | .commit t => t.modifies ≠ none → NoneLeftBehind s t
  | _ => True

instance (s : State) (pc : Pc) : Decidable (CommitsInOrder s pc) := by
  cases pc with
  | commit t => exact inferInstanceAs (Decidable (_ → _))
  | _ => exact .isTrue trivial

/-- The condition on a step.  The snapshots of recorded events stand, and no other party makes an intent
wait again. -/
def InOrder (s : State) : Action → Prop
  | .env e => ∀ k ∈ s.db.events.keys, e.world.masterPosition k = s.env.world.masterPosition k
  | .recordReplication _ rep => RecordedInOrder s rep
  | .updateReplication r rep => ∀ old ∈ s.db.replications.get r,
      (rep.status = .shadowRecorded → old.status = .shadowRecorded) ∧
        (rep.sltpTranslationOk = true → old.sltpTranslationOk = true)
  | .commit p _ => CommitsInOrder s (s.pc p)
  | _ => True

instance (s : State) (a : Action) : Decidable (InOrder s a) := by
  cases a with
  | env e => exact inferInstanceAs (Decidable (∀ k ∈ s.db.events.keys, _))
  | recordReplication k rep => exact inferInstanceAs (Decidable (RecordedInOrder s rep))
  | updateReplication r rep =>
    exact inferInstanceAs (Decidable (∀ old ∈ s.db.replications.get r, _))
  | commit p j => exact inferInstanceAs (Decidable (CommitsInOrder s (s.pc p)))
  | _ => exact .isTrue trivial

/-! ### What a due intent relies on -/

section

variable {s s' : State} {env : Env} {db : Db} {rep rep' : CopierReplication} {p r : ℕ}

/-- The recorded events and their snapshots stand. -/
structure Kept (s s' : State) : Prop where
  events : ∀ k event, s.db.events.get k = some event → s'.db.events.get k = some event
  snapshots : ∀ k ∈ s.db.events.keys, s'.env.world.masterPosition k = s.env.world.masterPosition k

lemma Kept.of_eq (hevents : s'.db.events = s.db.events) (henv : s'.env = s.env) : Kept s s' where
  events := by
    intro k event h
    rwa [hevents]
  snapshots := by
    intro k _
    rw [henv]

lemma isSome_of_due (h : due env db rep = true) : (db.events.get rep.masterEventId).isSome = true := by
  simp only [due, decide_eq_true_eq] at h
  obtain ⟨event, hevent, -⟩ := Option.any_eq_true _ _ |>.mp h.2.2.2.2
  simp [hevent]

lemma modify_of_due (h : due env db rep = true) : rep.requestedOp = .modifySltp := by
  simp only [due, decide_eq_true_eq] at h
  exact h.1

lemma noJob_of_due (h : due env db rep = true) : rep.executionJobId = none := by
  simp only [due, decide_eq_true_eq] at h
  exact h.2.1

lemma Kept.get_eq (h : Kept s s') {k : ℕ} (hk : (s.db.events.get k).isSome = true) :
    s'.db.events.get k = s.db.events.get k := by
  obtain ⟨event, hevent⟩ := Option.isSome_iff_exists.mp hk
  rw [hevent, h.events k event hevent]

lemma Kept.due_eq (h : Kept s s') (hevent : (s.db.events.get rep.masterEventId).isSome = true) :
    due s'.env s'.db rep = due s.env s.db rep := by
  have hkey : rep.masterEventId ∈ s.db.events.keys := by
    obtain ⟨event, hget⟩ := Option.isSome_iff_exists.mp hevent
    exact Table.mem_keys_of_get hget
  rw [due, due, h.get_eq hevent, h.snapshots _ hkey]

lemma Kept.positionOf_eq (h : Kept s s')
    (hevent : (s.db.events.get rep.masterEventId).isSome = true) :
    positionOf s'.db rep = positionOf s.db rep := by
  rw [positionOf, positionOf, h.get_eq hevent]

lemma Kept.before_eq (h : Kept s s') (hevent : (s.db.events.get rep.masterEventId).isSome = true)
    (hevent' : (s.db.events.get rep'.masterEventId).isSome = true) :
    before s'.db rep rep' = before s.db rep rep' := by
  rw [before, before, h.get_eq hevent, h.get_eq hevent']

lemma positionOf_of_sameIntent (h : sameIntent rep rep' = true) :
    positionOf db rep' = positionOf db rep := by
  simp only [sameIntent, decide_eq_true_eq] at h
  rw [positionOf, positionOf, h.2.2.1, h.2.2.2]

lemma masterEventId_of_sameIntent (h : sameIntent rep rep' = true) :
    rep'.masterEventId = rep.masterEventId := by
  simp only [sameIntent, decide_eq_true_eq] at h
  exact h.2.2.2

lemma due_of_admitReplication {admission : Admission}
    (h : admitReplication env db .modify rep = .ok admission) : due env db rep = true := by
  obtain ⟨⟨hnone, hstatus, hop⟩, -, -⟩ := of_admitReplication h
  unfold admitReplication at h
  split at h
  · rename_i follower event hfollower hevent
    have hmodify : ∃ ticket, admitModify env db rep follower event = .ok ticket := by
      cases hadm : admitModify env db rep follower event with
      | error reason => simp [hadm, Except.map] at h
      | ok ticket => exact ⟨ticket, rfl⟩
    obtain ⟨ticket, hadm⟩ := hmodify
    unfold admitModify at hadm
    split at hadm
    · cases hadm
    · rename_i hchecks
      have hlevels := firstRefusal_eq_none_iff.mp hchecks (rep.sltpTranslationOk, "sltp_incomplete")
        (by simp)
      split at hadm
      · cases hadm
      · rename_i hweak
        simp only [due, decide_eq_true_eq]
        exact ⟨hop, hnone, hstatus, hlevels, by simp [hevent, hweak]⟩
  · cases h

lemma sameIntent_of_decision {armed : Bool} {follower : CopierFollower} {event : MasterEvent}
    {found : DemoAdmission} {d : Decision} (hproducer : found.producer = .modify)
    (h : decision env armed r rep follower event found = .ok d) : sameIntent rep d.row = true := by
  cases found with
  | modify ticket =>
    obtain rfl := Except.ok.inj h
    cases armed with
    | true => simp [decideModify, sameIntent]
    | false => simp [decideModify, sameIntent]
  | open_ => cases hproducer
  | close ticket o openRepl => cases hproducer
  | partialClose ticket reduction remaining => cases hproducer

end

/-! ### What a step writes -/

/-- Neither the rows nor the facts change. -/
structure Quiet (s s' : State) : Prop where
  db : s'.db = s.db
  env : s'.env = s.env
  created : s'.created = s.created

inductive Writes (s : State) : Action → State → Prop where
  | quiet (a : Action) (s' : State) (h : Quiet s s') : Writes s a s'
  | env (e : Env) : Writes s (.env e) { s with env := e }
  | others (a : Action) (db : Db) (hreps : db.replications = s.db.replications)
      (hevents : ∀ k event, s.db.events.get k = some event → db.events.get k = some event) :
      Writes s a { s with db := db }
  | record (k : ℕ) (rep : CopierReplication) (hk : k ∉ s.db.replications.keys) :
      Writes s (.recordReplication k rep)
        { s with db.replications := s.db.replications.insert k rep }
  | update (r : ℕ) (rep old : CopierReplication) (hold : s.db.replications.get r = some old)
      (hsame : sameIntent old rep = true) : Writes s (.updateReplication r rep)
        { s with db.replications := s.db.replications.modify r fun _ => rep }
  | mark (p j : ℕ) (t : Txn) (hpc : s.pc p = .commit t) : Writes s (.commit p j) (s.mark p t)
  | assign (p j : ℕ) (t : Txn) (job : ExecutionJob) (hpc : s.pc p = .commit t)
      (hjob : t.decision.job = some job) : Writes s (.commit p j) (s.assign p j t job)

section

variable {s : State} {p r f : ℕ} {producer : Producer}

lemma Quiet.refl (s : State) : Quiet s s := ⟨rfl, rfl, rfl⟩

lemma quiet_goto (pc : Pc) : Quiet s (s.goto p pc) := ⟨rfl, rfl, rfl⟩

lemma quiet_lock (row : Row) (pc : Pc) : Quiet s (s.lock p row pc) := ⟨rfl, rfl, rfl⟩

lemma quiet_finish (reason : Option String) : Quiet s (s.finish p reason) := ⟨rfl, rfl, rfl⟩

lemma quiet_scan {seen : Db × Env} : Quiet s (scan s p producer r seen) := by
  unfold scan
  split_ifs
  · exact quiet_finish _
  · split
    · exact .refl s
    · split
      · exact quiet_finish _
      · exact quiet_goto _

lemma quiet_lockReplication : Quiet s (lockReplication s p producer r) := by
  unfold lockReplication
  split_ifs
  · exact .refl s
  · exact quiet_finish _
  · exact quiet_lock _ _

lemma quiet_gate : Quiet s (gate s p producer r) := by
  unfold gate
  split_ifs
  · exact quiet_finish _
  · exact quiet_goto _

variable {g flags : Flags}

lemma quiet_lockFollower : Quiet s (lockFollower s p producer r g) := by
  unfold lockFollower
  split
  · exact quiet_finish _
  · split_ifs
    · exact .refl s
    · exact quiet_lock _ _

lemma quiet_admitAgain : Quiet s (admitAgain s p producer r f g) := by
  unfold admitAgain
  split
  · exact quiet_finish _
  · split
    · exact quiet_finish _
    · exact quiet_goto _

lemma quiet_decideDemo {found : DemoAdmission} : Quiet s (decideDemo s p producer r f g found) := by
  unfold decideDemo
  split
  · exact quiet_finish _
  · split
    · split
      · exact quiet_finish _
      · exact quiet_goto _
    · exact quiet_finish _

lemma quiet_select {a : ℕ} : Quiet s (select s p r f g flags a) := by
  unfold select
  split
  · exact quiet_finish _
  · exact quiet_goto _

lemma quiet_lockAuthorization {a id : ℕ} : Quiet s (lockAuthorization s p r f g flags a id) := by
  unfold lockAuthorization
  split_ifs
  · exact .refl s
  · exact quiet_lock _ _
  · exact quiet_finish _

lemma quiet_decideLive {a id : ℕ} : Quiet s (decideLive s p r f g flags a id) := by
  unfold decideLive
  split
  · split
    · split
      · exact quiet_finish _
      · exact quiet_goto _
    · exact quiet_finish _
  · exact quiet_finish _

end

/-- **Every step is one of the writes.** -/
theorem step_writes (s : State) (a : Action) : Writes s a (step s a) := by
  cases a with
  | env e => exact .env e
  | recordEvent k event =>
    refine .others _ { s.db with events := s.db.events.insert k event } rfl fun i ev hget => ?_
    by_cases hk : k ∈ s.db.events.keys
    · rwa [Table.insert_of_mem event hk]
    · exact Table.get_insert_of_get hk hget
  | configureFollower k follower =>
    simp only [step]
    split_ifs
    · exact .others _ (s.db.configure k follower) rfl fun _ _ hget => hget
    · exact .quiet _ _ (.refl s)
  | recordReplication k rep =>
    simp only [step]
    split_ifs with h
    · exact .record k rep h.2
    · exact .quiet _ _ (.refl s)
  | updateReplication r rep =>
    simp only [step]
    split
    · exact .quiet _ _ (.refl s)
    · rename_i old hold
      split_ifs with h
      · exact .update r rep old hold h.2
      · exact .quiet _ _ (.refl s)
  | authorize id authz =>
    simp only [step]
    split_ifs
    · exact .others _ (s.db.authorize id authz) rfl fun _ _ hget => hget
    · exact .quiet _ _ (.refl s)
  | work j status =>
    exact .others _ { s.db with jobs := s.db.jobs.modify j fun job => { job with status } } rfl
      fun _ _ hget => hget
  | scan p producer r seen =>
    simp only [step]
    split
    · exact .quiet _ _ quiet_scan
    · exact .quiet _ _ (.refl s)
  | lockReplication p =>
    simp only [step]
    split
    · exact .quiet _ _ quiet_lockReplication
    · exact .quiet _ _ (.refl s)
  | gate p =>
    simp only [step]
    split
    · exact .quiet _ _ quiet_gate
    · exact .quiet _ _ (.refl s)
  | lockFollower p =>
    simp only [step]
    split
    · exact .quiet _ _ quiet_lockFollower
    · exact .quiet _ _ (.refl s)
  | admits p =>
    simp only [step]
    split
    · exact .quiet _ _ quiet_admitAgain
    · exact .quiet _ _ (.refl s)
  | decide p =>
    simp only [step]
    split
    · exact .quiet _ _ quiet_decideDemo
    · exact .quiet _ _ (.refl s)
  | select p =>
    simp only [step]
    split
    · exact .quiet _ _ quiet_select
    · exact .quiet _ _ (.refl s)
  | lockAuthorization p =>
    simp only [step]
    split
    · exact .quiet _ _ quiet_lockAuthorization
    · exact .quiet _ _ (.refl s)
  | decideLive p =>
    simp only [step]
    split
    · exact .quiet _ _ quiet_decideLive
    · exact .quiet _ _ (.refl s)
  | commit p j =>
    simp only [step]
    split
    · rename_i t hpc
      split
      · exact .mark p j t hpc
      · rename_i job hjob
        split_ifs
        · exact .quiet _ _ (.refl s)
        · exact .assign p j t job hpc hjob
    · exact .quiet _ _ (.refl s)
  | fail p => exact .quiet _ _ (quiet_finish none)

lemma kept_step {s : State} {a : Action} (h : InOrder s a) : Kept s (step s a) := by
  have hwrites := step_writes s a
  revert hwrites
  generalize step s a = s'
  intro hwrites
  cases hwrites with
  | quiet a s' hquiet => exact .of_eq (by rw [hquiet.db]) hquiet.env
  | env e => exact ⟨fun _ _ hget => hget, h⟩
  | others a db hreps hevents => exact ⟨hevents, fun _ _ => rfl⟩
  | record k rep hk => exact .of_eq rfl rfl
  | update r rep old hold hsame => exact .of_eq rfl rfl
  | mark p j t hpc => exact .of_eq rfl rfl
  | assign p j t job hpc hjob =>
    refine .of_eq ?_ rfl
    show (s.db.assign j t job).events = s.db.events
    unfold Db.assign Db.charge
    cases t.decision.charge <;> rfl

/-! ### What the sessions rely on -/

/-- A session that is about to change levels has locked a due intent. -/
def Pc.Due (s : State) : Pc → Prop
  | .admitted .modify r _ _ _ _ => ∃ rep, s.db.replications.get r = some rep ∧ due s.env s.db rep = true
  | .commit t => t.producer = .modify →
      due s.env s.db t.replication = true ∧ sameIntent t.replication t.decision.row = true
  | _ => True

section

variable {s s' : State} {p : ℕ} {pc : Pc}

lemma Pc.Due.congr (h : pc.Due s) (hkept : Kept s s')
    (hrows : ∀ r rep, Row.replication r ∈ pc.rows → s.db.replications.get r = some rep →
      s'.db.replications.get r = some rep) : pc.Due s' := by
  cases pc with
  | admitted producer r f gate flags admission =>
    cases producer with
    | modify =>
      obtain ⟨rep, hrep, hdue⟩ := h
      refine ⟨rep, hrows r rep (by simp [Pc.rows]) hrep, ?_⟩
      rw [hkept.due_eq (isSome_of_due hdue)]
      exact hdue
    | _ => trivial
  | commit t =>
    intro hproducer
    obtain ⟨hdue, hsame⟩ := h hproducer
    refine ⟨?_, hsame⟩
    rw [hkept.due_eq (isSome_of_due hdue)]
    exact hdue
  | _ => trivial

lemma due_moved (pc : Pc) (h : ∀ q, (s.pc q).Due s) (hkept : Kept s s')
    (hmoved : s'.pc = Function.update s.pc p pc) (hself : pc.Due s')
    (hrows : ∀ q r rep, q ≠ p → Row.replication r ∈ (s.pc q).rows →
      s.db.replications.get r = some rep → s'.db.replications.get r = some rep) (q : ℕ) :
    (s'.pc q).Due s' := by
  rw [hmoved]
  by_cases hq : q = p
  · rw [hq, Function.update_self]
    exact hself
  · rw [Function.update_of_ne hq]
    exact (h q).congr hkept fun r rep hr => hrows q r rep hq hr

lemma due_step {a : Action} (hinv : Inv s) (hkept : Kept s (step s a))
    (h : ∀ q, (s.pc q).Due s) (q : ℕ) : ((step s a).pc q).Due (step s a) := by
  have heff := step_effect s a
  revert heff hkept
  generalize step s a = s'
  intro hkept heff
  have hother : ∀ {p r q}, q ≠ p → Row.replication r ∈ (s.pc q).rows →
      Row.replication r ∉ (s.pc p).rows := fun hq hr hp => hq (hinv.locks.unique hr hp)
  cases heff with
  | stutter => exact h q
  | env e => exact (h q).congr hkept fun _ _ _ hrep => hrep
  | others a db hreps hjobs hkeys =>
    refine (h q).congr hkept fun r rep hr hrep => ?_
    obtain ⟨rep', hrep', -, hsame⟩ := hreps r rep hrep
    have hlocked : s.locks (.replication r) ≠ none := by
      rw [(hinv.locks (.replication r) q).mpr hr]
      exact Option.some_ne_none q
    show db.replications.get r = some rep
    rw [hrep', hsame hlocked]
  | finish a p reason =>
    exact due_moved .idle h hkept rfl trivial (fun _ _ _ _ _ hrep => hrep) q
  | preflight p producer r seen hpc =>
    exact due_moved _ h hkept rfl trivial (fun _ _ _ _ _ hrep => hrep) q
  | lockReplication p producer r hpc hfree =>
    exact due_moved _ h hkept rfl trivial (fun _ _ _ _ _ hrep => hrep) q
  | gate p producer r hpc hgate =>
    exact due_moved _ h hkept rfl trivial (fun _ _ _ _ _ hrep => hrep) q
  | lockFollower p producer r gate rep hpc hrep hfree =>
    exact due_moved _ h hkept rfl trivial (fun _ _ _ _ _ hrep => hrep) q
  | admits p producer r f gate rep admission hpc hrep hadm =>
    refine due_moved (.admitted producer r f gate s.env.flags admission) h hkept rfl ?_
      (fun _ _ _ _ _ hrep => hrep) q
    cases producer with
    | modify => exact ⟨rep, hrep, due_of_admitReplication hadm⟩
    | _ => trivial
  | decide p producer r f gate flags found rep follower event d hpc hrep hdecision =>
    refine due_moved _ h hkept rfl ?_ (fun _ _ _ _ _ hrep => hrep) q
    intro hproducer
    obtain rfl : producer = .modify := hproducer
    have hdue := h p
    have hsound := hinv.sound p
    rw [hpc] at hdue hsound
    obtain ⟨rep', hrep', hdue⟩ := hdue
    obtain rfl : rep' = rep := Option.some.inj (hrep'.symm.trans hrep)
    exact ⟨hdue, sameIntent_of_decision hsound.2.2.1 hdecision⟩
  | select p producer r f gate flags a id hpc =>
    exact due_moved _ h hkept rfl trivial (fun _ _ _ _ _ hrep => hrep) q
  | lockAuthorization p r f gate flags a id hpc hfree =>
    exact due_moved _ h hkept rfl trivial (fun _ _ _ _ _ hrep => hrep) q
  | decideLive p r f gate flags a id rep follower event authz d hpc hrep hdecision =>
    exact due_moved (.commit _) h hkept rfl (fun hproducer => nomatch hproducer)
      (fun _ _ _ _ _ hrep => hrep) q
  | mark p j t hpc hjob =>
    refine due_moved .idle h hkept rfl trivial (fun q r rep hq hr hrep => ?_) q
    have hne : r ≠ t.replicationId := by
      rintro rfl
      exact hother hq hr (by rw [hpc]; exact List.mem_cons_self)
    show (s.db.replications.modify t.replicationId _).get r = some rep
    rw [Table.get_modify_of_ne _ _ hne]
    exact hrep
  | assign p j t job hpc hjob hj =>
    refine due_moved .idle h hkept rfl trivial (fun q r rep hq hr hrep => ?_) q
    have hne : r ≠ t.replicationId := by
      rintro rfl
      exact hother hq hr (by rw [hpc]; exact List.mem_cons_self)
    show (s.db.assign j t job).replications.get r = some rep
    rw [replications_assign, Table.get_modify_of_ne _ _ hne]
    exact hrep

end

/-! ### The order along a run -/

/-- What the runs keep that meet the condition. -/
structure Ordered (s : State) : Prop where
  sessions : ∀ p, (s.pc p).Due s
  /-- The events of the level changes are recorded. -/
  recorded : ∀ r rep, s.db.replications.get r = some rep → rep.requestedOp = .modifySltp →
    (s.db.events.get rep.masterEventId).isSome = true
  /-- The intent of a requested change holds its job. -/
  made : ∀ e ∈ s.created, e.2.modifies ≠ none →
    ∃ rep, s.db.replications.get e.2.replicationId = some rep ∧ rep.requestedOp = .modifySltp ∧
      rep.executionJobId ≠ none ∧ rep.followerId = e.2.replication.followerId ∧
      rep.masterEventId = e.2.replication.masterEventId
  /-- What is due is newer than what has been requested for its position. -/
  ahead : ∀ e ∈ s.created, e.2.modifies ≠ none → ∀ r rep, s.db.replications.get r = some rep →
    due s.env s.db rep = true → positionOf s.db rep = positionOf s.db e.2.replication →
    before s.db e.2.replication rep = true
  order : ModifiesInOrder s

section

variable {s s' : State} {p r : ℕ} {t : Txn} {rep old : CopierReplication}

lemma ordered_init (env : Env) : Ordered (init env) where
  sessions := fun _ => trivial
  recorded := fun _ _ hget => nomatch hget
  made := fun _ he => nomatch he
  ahead := fun _ he => nomatch he
  order := List.Pairwise.nil

/-- The event of a requested change is recorded. -/
lemma Ordered.isSome_of_made (h : Ordered s) {e : ℕ × Txn} (he : e ∈ s.created)
    (hmodifies : e.2.modifies ≠ none) :
    (s.db.events.get e.2.replication.masterEventId).isSome = true := by
  obtain ⟨rep, hrep, hop, -, -, hevent⟩ := h.made e he hmodifies
  rw [← hevent]
  exact h.recorded _ rep hrep hop

lemma producer_of_modifies (h : t.modifies ≠ none) : t.producer = .modify := by
  unfold Txn.modifies at h
  split_ifs at h with hproducer
  · exact hproducer
  · exact absurd rfl h

lemma Ordered.order_kept (h : Ordered s) (hkept : Kept s s') (hcreated : s'.created = s.created) :
    ModifiesInOrder s' := by
  unfold ModifiesInOrder
  rw [hcreated]
  refine h.order.imp_of_mem fun {e e'} he he' hbefore key hkey hkey' => ?_
  rw [hkept.before_eq (h.isSome_of_made he (by simp [hkey]))
    (h.isSome_of_made he' (by simp [hkey']))]
  exact hbefore key hkey hkey'

lemma Ordered.kept (h : Ordered s) (hkept : Kept s s') (hcreated : s'.created = s.created)
    (hsessions : ∀ q, (s'.pc q).Due s')
    (hmade : ∀ r rep, s.db.replications.get r = some rep → rep.executionJobId ≠ none →
      ∃ rep', s'.db.replications.get r = some rep' ∧ sameIntent rep rep' = true)
    (hnew : ∀ r rep', s'.db.replications.get r = some rep' → rep'.requestedOp = .modifySltp →
      ∃ rep, s.db.replications.get r = some rep ∧ sameIntent rep rep' = true ∧
        (due s'.env s'.db rep' = true → due s.env s.db rep = true)) : Ordered s' where
  sessions := hsessions
  recorded := by
    intro r rep' hrep' hop
    obtain ⟨rep, hrep, hsame, -⟩ := hnew r rep' hrep' hop
    have hevent := masterEventId_of_sameIntent hsame
    simp only [sameIntent, decide_eq_true_eq] at hsame
    have hsome := h.recorded r rep hrep (hsame.2.1.symm.trans hop)
    rw [hevent, hkept.get_eq hsome]
    exact hsome
  made := by
    intro e he hmodifies
    rw [hcreated] at he
    obtain ⟨rep, hrep, hop, hjob, hfollower, hevent⟩ := h.made e he hmodifies
    obtain ⟨rep', hrep', hsame⟩ := hmade _ rep hrep hjob
    simp only [sameIntent, decide_eq_true_eq] at hsame
    exact ⟨rep', hrep', hsame.2.1.trans hop, by rw [hsame.1]; exact hjob,
      hsame.2.2.1.trans hfollower, hsame.2.2.2.trans hevent⟩
  ahead := by
    intro e he hmodifies r rep' hrep' hdue hposition
    rw [hcreated] at he
    obtain ⟨rep, hrep, hsame, hwas⟩ := hnew r rep' hrep' (modify_of_due hdue)
    have hdue' := hwas hdue
    have hevent := h.isSome_of_made he hmodifies
    have heq := masterEventId_of_sameIntent hsame
    have hbefore : before s'.db e.2.replication rep' = before s.db e.2.replication rep := by
      rw [← hkept.before_eq hevent (isSome_of_due hdue'), before, before, heq]
    rw [hbefore]
    refine h.ahead e he hmodifies r rep hrep hdue' ?_
    rw [← hkept.positionOf_eq (isSome_of_due hdue'), ← hkept.positionOf_eq hevent,
      ← positionOf_of_sameIntent hsame]
    exact hposition
  order := h.order_kept hkept hcreated

lemma Ordered.same_rows (h : Ordered s) (hkept : Kept s s') (hcreated : s'.created = s.created)
    (hsessions : ∀ q, (s'.pc q).Due s') (hrows : s'.db.replications = s.db.replications) :
    Ordered s' := by
  refine h.kept hkept hcreated hsessions (fun r rep hrep _ => ?_) fun r rep hrep hop => ?_
  · exact ⟨rep, by rw [hrows]; exact hrep, sameIntent_refl rep⟩
  · rw [hrows] at hrep
    refine ⟨rep, hrep, sameIntent_refl rep, fun hdue => ?_⟩
    rwa [hkept.due_eq (h.recorded r rep hrep hop)] at hdue

lemma Ordered.record (h : Ordered s) {k : ℕ} (hk : k ∉ s.db.replications.keys)
    (hcondition : RecordedInOrder s rep) :
    Ordered { s with db.replications := s.db.replications.insert k rep } := by
  have hkept : Kept s { s with db.replications := s.db.replications.insert k rep } := .of_eq rfl rfl
  have hget : ∀ r rep', (s.db.replications.insert k rep).get r = some rep' →
      r = k ∧ rep' = rep ∨ s.db.replications.get r = some rep' := by
    intro r rep' hrep'
    rw [Table.get_insert rep hk] at hrep'
    split_ifs at hrep' with hr
    · exact .inl ⟨hr, (Option.some.inj hrep').symm⟩
    · exact .inr hrep'
  constructor
  · intro q
    exact (h.sessions q).congr hkept fun r rep' _ hrep' => Table.get_insert_of_get hk hrep'
  · intro r rep' hrep' hop
    rcases hget r rep' hrep' with ⟨-, rfl⟩ | hold
    · exact (hcondition hop).1
    · exact h.recorded r rep' hold hop
  · intro e he hmodifies
    obtain ⟨rep', hrep', hrest⟩ := h.made e he hmodifies
    exact ⟨rep', Table.get_insert_of_get hk hrep', hrest⟩
  · intro e he hmodifies r rep' hrep' hdue hposition
    rcases hget r rep' hrep' with ⟨-, rfl⟩ | hold
    · -- the intent that holds the job of `e` has been recorded before
      obtain ⟨made, hmade, hop, hjob, hfollower, hevent⟩ := h.made e he hmodifies
      have hbefore := (hcondition (modify_of_due hdue)).2 _ (Table.get_eq_some_iff.mp hmade) hop hjob
      rw [positionOf, hevent, hfollower] at hbefore
      have hresult := hbefore hposition.symm
      rwa [before, hevent] at hresult
    · exact h.ahead e he hmodifies r rep' hold hdue hposition
  · exact h.order_kept hkept rfl

lemma Ordered.update (h : Ordered s) (hold : s.db.replications.get r = some old)
    (hsame : sameIntent old rep = true)
    (hstatus : rep.status = .shadowRecorded → old.status = .shadowRecorded)
    (hlevels : rep.sltpTranslationOk = true → old.sltpTranslationOk = true)
    (hsessions : ∀ q, (s.pc q).Due { s with db.replications := s.db.replications.modify r fun _ => rep }) :
    Ordered { s with db.replications := s.db.replications.modify r fun _ => rep } := by
  refine h.kept (.of_eq rfl rfl) rfl hsessions (fun k row hrow _ => ?_) fun k row hrow hop => ?_
  · by_cases hk : k = r
    · subst hk
      obtain rfl : row = old := Option.some.inj (hrow.symm.trans hold)
      exact ⟨rep, by simp [hrow], hsame⟩
    · exact ⟨row, by rw [Table.get_modify_of_ne _ _ hk]; exact hrow, sameIntent_refl row⟩
  · dsimp only at hrow
    rw [Table.get_modify] at hrow
    split_ifs at hrow with hk
    · rw [hold] at hrow
      obtain rfl := Option.some.inj hrow
      refine ⟨old, by rw [hk]; exact hold, hsame, fun hdue => ?_⟩
      simp only [sameIntent, decide_eq_true_eq] at hsame
      simp only [due, decide_eq_true_eq] at hdue ⊢
      rw [hsame.1, hsame.2.1, hsame.2.2.2] at hdue
      exact ⟨hdue.1, hdue.2.1, hstatus hdue.2.2.1, hlevels hdue.2.2.2.1, hdue.2.2.2.2⟩
    · exact ⟨row, hrow, sameIntent_refl row, id⟩

lemma Ordered.decided (h : Ordered s) (hinv : Inv s) (hpc : s.pc p = .commit t)
    (hop : t.decision.row.requestedOp = .modifySltp) : t.producer = .modify ∧
      due s.env s.db t.replication = true ∧ sameIntent t.replication t.decision.row = true := by
  have hsound := hinv.sound p
  have hdue := h.sessions p
  rw [hpc] at hsound hdue
  have hproducer : t.producer = .modify := by
    have hrequested : t.producer.requestedOp = .modifySltp := by
      rw [← hsound.1.op, ← hsound.1.fits.op]
      exact hop
    cases hcase : t.producer with
    | modify => rfl
    | _ =>
      rw [hcase] at hrequested
      cases hrequested
  exact ⟨hproducer, hdue hproducer⟩

/-- A decision without a job is committed. -/
lemma Ordered.mark (h : Ordered s) (hinv : Inv s) (hpc : s.pc p = .commit t)
    (hsessions : ∀ q, ((s.mark p t).pc q).Due (s.mark p t)) : Ordered (s.mark p t) := by
  have hsound := hinv.sound p
  rw [hpc] at hsound
  refine h.kept (.of_eq rfl rfl) rfl hsessions (fun k row hrow hjob => ?_) fun k row hrow hop => ?_
  · have hk : k ≠ t.replicationId := by
      rintro rfl
      rw [hsound.2] at hrow
      obtain rfl := Option.some.inj hrow
      exact hjob hsound.1.intent
    refine ⟨row, ?_, sameIntent_refl row⟩
    show (s.db.replications.modify t.replicationId _).get k = some row
    rw [Table.get_modify_of_ne _ _ hk]
    exact hrow
  · have hget : (s.db.replications.modify t.replicationId fun _ => t.decision.row).get k = some row :=
      hrow
    rw [Table.get_modify] at hget
    split_ifs at hget with hk
    · rw [hsound.2] at hget
      obtain rfl := Option.some.inj hget
      obtain ⟨-, hdue, hsame⟩ := h.decided hinv hpc hop
      exact ⟨t.replication, by rw [hk]; exact hsound.2, hsame, fun _ => hdue⟩
    · exact ⟨row, hget, sameIntent_refl row, id⟩

lemma Ordered.assign (h : Ordered s) (hinv : Inv s) (hpc : s.pc p = .commit t) {j : ℕ}
    {job : ExecutionJob} (hcondition : CommitsInOrder s (s.pc p)) (hkept : Kept s (s.assign p j t job))
    (hsessions : ∀ q, ((s.assign p j t job).pc q).Due (s.assign p j t job)) :
    Ordered (s.assign p j t job) := by
  have hsound := hinv.sound p
  rw [hpc] at hsound hcondition
  have hget : ∀ k row, (s.assign p j t job).db.replications.get k = some row →
      k = t.replicationId ∧ row = { t.decision.row with executionJobId := some j } ∨
        k ≠ t.replicationId ∧ s.db.replications.get k = some row := by
    intro k row hrow
    have hmodify : (s.db.replications.modify t.replicationId fun _ =>
        { t.decision.row with executionJobId := some j }).get k = some row := by
      rw [← replications_assign s.db j t job]
      exact hrow
    rw [Table.get_modify] at hmodify
    split_ifs at hmodify with hk
    · rw [hsound.2] at hmodify
      exact .inl ⟨hk, (Option.some.inj hmodify).symm⟩
    · exact .inr ⟨hk, hmodify⟩
  have hother : ∀ e ∈ s.created, ∀ row, s.db.replications.get e.2.replicationId = some row →
      row.executionJobId ≠ none → (s.assign p j t job).db.replications.get e.2.replicationId = some row := by
    intro e he row hrow hjob
    have hne : e.2.replicationId ≠ t.replicationId := by
      intro heq
      rw [heq, hsound.2] at hrow
      obtain rfl := Option.some.inj hrow
      exact hjob hsound.1.intent
    show (s.db.assign j t job).replications.get _ = some row
    rw [replications_assign, Table.get_modify_of_ne _ _ hne]
    exact hrow
  constructor
  · exact hsessions
  · intro k row hrow hop
    rcases hget k row hrow with ⟨-, rfl⟩ | ⟨-, hold⟩
    · obtain ⟨-, hdue, hsame⟩ := h.decided hinv hpc hop
      have hevent := masterEventId_of_sameIntent hsame
      show ((s.assign p j t job).db.events.get t.decision.row.masterEventId).isSome = true
      rw [hevent, hkept.get_eq (isSome_of_due hdue)]
      exact isSome_of_due hdue
    · have hsome := h.recorded k row hold hop
      rw [hkept.get_eq hsome]
      exact hsome
  · intro e he hmodifies
    rcases List.mem_append.mp he with hold | hnew
    · obtain ⟨row, hrow, hop, hjob, hrest⟩ := h.made e hold hmodifies
      exact ⟨row, hother e hold row hrow hjob, hop, hjob, hrest⟩
    · obtain rfl := List.mem_singleton.mp hnew
      have hdue := h.sessions p
      rw [hpc] at hdue
      obtain ⟨hdue, hsame⟩ := hdue (producer_of_modifies hmodifies)
      simp only [sameIntent, decide_eq_true_eq] at hsame
      refine ⟨{ t.decision.row with executionJobId := some j }, ?_, ?_, Option.some_ne_none j,
        hsame.2.2.1, hsame.2.2.2⟩
      · show (s.db.assign j t job).replications.get t.replicationId = _
        rw [replications_assign, Table.get_modify_self, hsound.2]
        rfl
      · exact hsame.2.1.trans (modify_of_due hdue)
  · intro e he hmodifies k row hrow hdue hposition
    rcases hget k row hrow with ⟨-, rfl⟩ | ⟨hk, hold⟩
    · -- the intent that has just got its job is not due
      exact absurd (noJob_of_due hdue) (Option.some_ne_none j)
    have hsome := h.recorded k row hold (modify_of_due hdue)
    rw [hkept.due_eq hsome] at hdue
    rcases List.mem_append.mp he with hmem | hnew
    · have hevent := h.isSome_of_made hmem hmodifies
      rw [hkept.before_eq hevent hsome]
      rw [hkept.positionOf_eq hsome, hkept.positionOf_eq hevent] at hposition
      exact h.ahead e hmem hmodifies k row hold hdue hposition
    · obtain rfl := List.mem_singleton.mp hnew
      have hcommit := h.sessions p
      rw [hpc] at hcommit
      have hevent := isSome_of_due (hcommit (producer_of_modifies hmodifies)).1
      rw [hkept.before_eq hevent hsome]
      rw [hkept.positionOf_eq hsome, hkept.positionOf_eq hevent] at hposition
      exact (hcondition hmodifies).1 (k, row) (Table.get_eq_some_iff.mp hold) hk hdue hposition
  · have hearlier := h.order
    show (s.created ++ [(j, t)]).Pairwise _
    rw [List.pairwise_append]
    refine ⟨hearlier.imp_of_mem fun {e e'} he he' hbefore key hkey hkey' => ?_,
      List.pairwise_singleton _ _, fun e he e' he' key hkey hkey' => ?_⟩
    · rw [hkept.before_eq (h.isSome_of_made he (by simp [hkey]))
        (h.isSome_of_made he' (by simp [hkey']))]
      exact hbefore key hkey hkey'
    · obtain rfl := List.mem_singleton.mp he'
      have hmodifies : t.modifies ≠ none := by simp [hkey']
      have hcommit := h.sessions p
      rw [hpc] at hcommit
      obtain ⟨hdue, -⟩ := hcommit (producer_of_modifies hmodifies)
      rw [hkept.before_eq (h.isSome_of_made he (by simp [hkey])) (isSome_of_due hdue)]
      -- the ticket belongs to the position, and what is due for it is newer
      refine h.ahead e he (by simp [hkey]) _ _ hsound.2 hdue ?_
      exact ((hcondition hmodifies).2 e he (hkey.trans hkey'.symm)).symm

/-- Every step that meets the condition keeps the order. -/
theorem ordered_step (s : State) (a : Action) (h : Inv s ∧ Ordered s) (hcondition : InOrder s a) :
    Inv (step s a) ∧ Ordered (step s a) := by
  obtain ⟨hinv, h⟩ := h
  have hkept := kept_step hcondition
  have hsessions := due_step hinv hkept h.sessions
  refine ⟨inv_step s a hinv, ?_⟩
  have hwrites := step_writes s a
  revert hwrites hkept hsessions
  generalize step s a = s'
  intro hkept hsessions hwrites
  cases hwrites with
  | quiet a s' hquiet => exact h.same_rows hkept hquiet.created hsessions (by rw [hquiet.db])
  | env e => exact h.same_rows hkept rfl hsessions rfl
  | others a db hreps hevents => exact h.same_rows hkept rfl hsessions hreps
  | record k rep hk => exact h.record hk hcondition
  | update r rep old hold hsame =>
    obtain ⟨hstatus, hlevels⟩ := hcondition old hold
    exact h.update hold hsame hstatus hlevels hsessions
  | mark p j t hpc => exact h.mark hinv hpc hsessions
  | assign p j t job hpc hjob => exact h.assign hinv hpc hcondition hkept hsessions

end

/-- **The level changes are requested in the order of the master**, in every run in which each of them is
committed in order: no older change of its position is left behind that could still be admitted, and its
ticket has been used for this position only.  The other parties record the intents in order, keep the
snapshots and make no intent wait again. -/
theorem modifies_inOrder (env : Env) (as : List Action) (h : StepsMeet step InOrder (init env) as) :
    ModifiesInOrder (run step (init env) as) :=
  (run_invariant_of_meets (P := fun s => Inv s ∧ Ordered s) ordered_step
    ⟨inv_init env, ordered_init env⟩ h).2.order

/-! ### A change that is left behind -/

def armedEnv : Env :=
  { sampleEnv with
    toEnv := { LiveExecution.sampleEnv 100 with
      flags := { Flags.allOn with liveExecuteEnabled := false } } }

/-- The take-profit of the position 1 is changed. -/
def sampleChange (sequence : ℕ) : MasterEvent :=
  ⟨{ LiveExecution.sampleEvent sequence with eventType := .tpChange, positionTicket := 1 }, 0, none, none⟩

def changeIntent (event : ℕ) : CopierReplication :=
  ⟨{ LiveExecution.sampleIntent event with requestedOp := .modifySltp }, none, .blank⟩

def threeChanges : List Action :=
  [.recordEvent 1 ⟨LiveExecution.sampleEvent 1, 0, none, none⟩,
    .configureFollower 1 ⟨1, 2, true, { mode := .multiplier }⟩,
    .recordReplication 1
      ⟨{ LiveExecution.sampleIntent 1 with status := .executionVerified }, some 900, .matched⟩,
    .recordEvent 2 (sampleChange 2), .recordReplication 2 (changeIntent 2),
    .recordEvent 3 (sampleChange 3), .recordReplication 3 (changeIntent 3),
    .recordEvent 4 (sampleChange 4), .recordReplication 4 (changeIntent 4)]

/-- One session takes the intent `r` and requests its change as the job `j`. -/
def requestChange (s : State) (r j : ℕ) : List Action :=
  [.scan 1 .modify r (s.db, s.env), .lockReplication 1, .gate 1, .lockFollower 1, .admits 1, .decide 1,
    .commit 1 j]

/-- The changes are requested one after the other. -/
def oneByOne : List Action :=
  let recorded := run step (init armedEnv) threeChanges
  let first := threeChanges ++ requestChange recorded 2 1 ++ [.work 1 .success]
  first ++ requestChange (run step (init armedEnv) first) 3 2

theorem modifies_inOrder_oneByOne :
    ((run step (init armedEnv) oneByOne).created.map fun e => e.2.replicationId) = [2, 3] ∧
      ModifiesInOrder (run step (init armedEnv) oneByOne) :=
  ⟨by decide +kernel, modifies_inOrder armedEnv oneByOne (by decide +kernel)⟩

/-- The second change is taken up while the first one is in flight, and the third one after it. -/
def leftBehind : List Action :=
  let recorded := run step (init armedEnv) threeChanges
  let first := threeChanges ++ requestChange recorded 2 1
  let refused := first ++ [.scan 1 .modify 3 ((run step (init armedEnv) first).db, armedEnv),
    .work 1 .success]
  let third := refused ++ requestChange (run step (init armedEnv) refused) 4 2 ++ [.work 2 .success]
  third ++ requestChange (run step (init armedEnv) third) 3 3

/-- **An older change is requested after a newer one.** -/
theorem not_modifies_inOrder :
    ((run step (init armedEnv) leftBehind).created.map fun e => (e.2.modifies, e.2.replicationId)) =
        [(some (2, 900), 2), (some (2, 900), 4), (some (2, 900), 3)] ∧
      ¬ ModifiesInOrder (run step (init armedEnv) leftBehind) := by
  unfold ModifiesInOrder
  decide +kernel

end ExecutionProducer
end GuvFX
