/-
# What a step does to a job

A job moves along three tracks at once: its row, its worker and its order at the broker.  The
invariant ties them together: a position that an order has opened carries the comment of the leg of
its job, and a trade that is closed belongs to a position that is closed.
-/
import GuvFX.Execution.OrderSystem

namespace GuvFX
namespace Orders

open Runs Promotion
open Consumer (JobType JobStatus)

/-! ### The rows of the jobs in a step of the promotions -/

section Rows

variable {db : Db} {env : Env} {session : Session} {j : ℕ}

lemma rows_foldl (es : List (ℕ × ProposedOrderLeg)) (db : Db) (j : ℕ) :
    (es.foldl (promoteLeg env session) db).jobs.get j = db.jobs.get j ∨
      db.jobs.get j = none ∧ ∃ e ∈ es,
        (es.foldl (promoteLeg env session) db).jobs.get j = some (orderJob env session e.2) := by
  induction es generalizing db with
  | nil => exact .inl rfl
  | cons e es ih =>
    rw [List.foldl_cons]
    cases hold : db.jobs.get j with
    | some job =>
      left
      exact jobs_foldl es (jobs_promoteLeg env session e hold)
    | none =>
      rcases ih (promoteLeg env session db e) with h | ⟨-, e', he', h⟩
      · cases hnew : (promoteLeg env session db e).jobs.get j with
        | none => left; rw [h, hnew]
        | some job =>
          rcases jobs_of_promoteLeg env session e hnew with hcontra | ⟨-, -, rfl⟩
          · rw [hold] at hcontra; cases hcontra
          · right
            exact ⟨rfl, e, List.mem_cons_self, by rw [h, hnew]⟩
      · right
        exact ⟨rfl, e', List.mem_cons_of_mem e he', h⟩

/-- A job after its cancellation by the command of a provider. -/
def cancelledJob (job : ExecutionJob) (now : Time) : ExecutionJob :=
  { job with
    status := .failed
    errorMessage := "cancelled by provider command"
    finishedAt := some now }

lemma rows_cancelPendingOrderJobs (db : Db) (k : ℕ) (locked : ℕ → Bool) (now : Time) (j : ℕ) :
    (cancelPendingOrderJobs db k locked now).jobs.get j = db.jobs.get j ∨
      ∃ job, db.jobs.get j = some job ∧ locked j = false ∧ job.status = .pending ∧
        (cancelPendingOrderJobs db k locked now).jobs.get j = some (cancelledJob job now) := by
  unfold cancelPendingOrderJobs
  dsimp only
  generalize ((legsOf db k).filterMap fun leg => leg.2.executionJobId) = ids
  generalize db.jobs = jobs
  induction ids generalizing jobs with
  | nil => exact .inl rfl
  | cons i ids ih =>
    rw [List.foldl_cons]
    by_cases hi : j = i
    · subst hi
      rcases ih _ with h | ⟨job, hjob, hfree, hpending, h⟩
      · rw [h, Table.get_modify_self]
        cases hjob : jobs.get j with
        | none => exact .inl rfl
        | some job =>
          rw [Option.map_some]
          split_ifs with hcond
          · exact .inr ⟨job, rfl, hcond.1, hcond.2.1, rfl⟩
          · exact .inl rfl
      · -- a job that has been cancelled is not pending any more
        rw [Table.get_modify_self, Option.map_eq_some_iff] at hjob
        obtain ⟨row, hrow, hcancel⟩ := hjob
        split_ifs at hcancel with hcond
        · subst hcancel; cases hpending
        · subst hcancel
          exact .inr ⟨row, hrow, hfree, hpending, h⟩
    · have hother : ∀ f, (jobs.modify i f).get j = jobs.get j :=
        fun f => Table.get_modify_of_ne jobs f hi
      rcases ih _ with h | ⟨job, hjob, hrest⟩
      · exact .inl (by rw [h, hother])
      · exact .inr ⟨job, by rw [← hjob, hother], hrest⟩

inductive RowStep (s : Promotion.State) (a : Promotion.Action) (j : ℕ) :
    Option ExecutionJob → Option ExecutionJob → Prop
  | stays (row : Option ExecutionJob) : RowStep s a j row row
  | created (p : ℕ) (session : Session) (e : ℕ × ProposedOrderLeg) : a = .commit p .done →
      s.promoters p = .ready session → e ∈ session.legs →
      RowStep s a j none (some (orderJob s.env session e.2))
  | cancelled (c : ℕ) (locked : ℕ → Bool) (job : ExecutionJob) : a = .cancelJobs c locked →
      locked j = false → job.status = .pending →
      RowStep s a j (some job) (some (cancelledJob job s.now))

lemma rowStep_of_jobs {s s' : Promotion.State} {a : Promotion.Action}
    (h : s'.db.jobs = s.db.jobs) : RowStep s a j (s.db.jobs.get j) (s'.db.jobs.get j) := by
  rw [h]
  exact .stays _

lemma row_step (s : Promotion.State) {a : Promotion.Action} (j : ℕ)
    (hwork : ∀ i status e t, a ≠ .workJob i status e t) :
    RowStep s a j (s.db.jobs.get j) ((Promotion.step s a).db.jobs.get j) := by
  cases a with
  | setEnv | tick | closePlan => exact .stays _
  | createPlan k plan planning =>
    refine rowStep_of_jobs ?_
    dsimp only [Promotion.step, State.withDb, Promotion.State.withDb, createPlan]
    split_ifs <;> rfl
  | load p k mode auto =>
    refine rowStep_of_jobs ?_
    dsimp only [Promotion.step]
    cases s.promoters p with
    | idle => rw [db_load]
    | loaded | validated | ready | rejected => rfl
  | validate p =>
    refine rowStep_of_jobs ?_
    dsimp only [Promotion.step]
    cases s.promoters p with
    | loaded session => rw [db_validateSession]
    | idle | validated | ready | rejected => rfl
  | readLegs p =>
    refine rowStep_of_jobs ?_
    dsimp only [Promotion.step]
    cases s.promoters p <;> rfl
  | commit p outcome =>
    dsimp only [Promotion.step]
    cases hp : s.promoters p with
    | idle | loaded | validated | rejected => exact .stays _
    | ready session =>
      cases outcome with
      | otherError => exact .stays _
      | integrityError =>
        refine rowStep_of_jobs ?_
        dsimp only [commit]
        split_ifs <;> rfl
      | done =>
        show RowStep s _ j _ ((session.legs.foldl (promoteLeg s.env session) s.db).jobs.get j)
        rcases rows_foldl session.legs s.db j with h | ⟨hnone, e, he, h⟩
        · rw [h]; exact .stays _
        · rw [h, hnone]; exact .created p session e rfl hp he
  | voidRejected p =>
    refine rowStep_of_jobs ?_
    dsimp only [Promotion.step]
    cases s.promoters p <;> rfl
  | command c k closeAll ingested =>
    refine rowStep_of_jobs ?_
    dsimp only [Promotion.step]
    cases s.commands c with
    | idle => dsimp only [startCommand]; split_ifs <;> rfl
    | cancelling | withdrawing => rfl
  | cancelPlan c =>
    refine rowStep_of_jobs ?_
    dsimp only [Promotion.step]
    cases s.commands c <;> rfl
  | cancelJobs c l =>
    dsimp only [Promotion.step]
    cases s.commands c with
    | idle | cancelling => exact .stays _
    | withdrawing k =>
      show RowStep s _ j _ ((cancelPendingOrderJobs s.db k l s.now).jobs.get j)
      rcases rows_cancelPendingOrderJobs s.db k l s.now j with h | ⟨job, hjob, hfree, hpending, h⟩
      · rw [h]; exact .stays _
      · rw [h, hjob]; exact .cancelled c l job rfl hfree hpending
  | sweep q threshold filter limit =>
    refine rowStep_of_jobs ?_
    dsimp only [Promotion.step]
    cases orphanedPlannedPlans s.db s.now threshold filter limit <;> rfl
  | reclaim q =>
    refine rowStep_of_jobs ?_
    dsimp only [Promotion.step]
    cases s.sweeps q <;> rfl
  | workJob i status e t => exact absurd rfl (hwork i status e t)

end Rows

/-! ### The three tracks of a job -/

/-- What there is of a job: its row, its worker and its order. -/
structure Track where
  job : Option ExecutionJob
  work : Work
  order : BrokerOrder

def State.track (s : State) (j : ℕ) : Track := ⟨s.base.db.jobs.get j, s.works j, s.orders j⟩

namespace Track

def putJob (job : ExecutionJob) (t : Track) : Track := { t with job := some job }

def putWork (work : Work) (t : Track) : Track := { t with work }

def putOrder (order : BrokerOrder) (t : Track) : Track := { t with order }

end Track

def saved (job : ExecutionJob) (status : JobStatus) (errorMessage : String)
    (finishedAt : Option Time) : ExecutionJob := { job with status, errorMessage, finishedAt }

/-- What a step does to a job. -/
inductive Moves (s : State) (a : Action) (j : ℕ) : Track → Track → Prop
  | stays (t : Track) : Moves s a j t t
  | created (p : ℕ) (session : Session) (e : ℕ × ProposedOrderLeg) (w : Work) (o : BrokerOrder) :
      a = .promotion (.commit p .done) → s.base.promoters p = .ready session →
      e ∈ session.legs → Moves s a j ⟨none, w, o⟩ ⟨some (orderJob s.base.env session e.2), w, o⟩
  | cancelled (job : ExecutionJob) (w : Work) (o : BrokerOrder) : w ≠ .claiming →
      job.status = .pending → Moves s a j ⟨some job, w, o⟩ ⟨some (cancelledJob job s.base.now), w, o⟩
  | locked (job : ExecutionJob) (o : BrokerOrder) : a = .lockJob j → job.status = .pending →
      Moves s a j ⟨some job, .idle, o⟩ ⟨some job, .claiming, o⟩
  | unlocked (row : Option ExecutionJob) (o : BrokerOrder) :
      Moves s a j ⟨row, .claiming, o⟩ ⟨row, .idle, o⟩
  | claimed (job : ExecutionJob) (o : BrokerOrder) : a = .claimJob j none →
      Moves s a j ⟨some job, .claiming, o⟩ ⟨some (saved job .running "" none), .holding, o⟩
  | refused (job : ExecutionJob) (o : BrokerOrder) (reason : String) :
      Moves s a j ⟨some job, .claiming, o⟩ ⟨some (saved job .failed reason s.base.now), .done, o⟩
  | sent (job : ExecutionJob) : a = .sendOrder j →
      Moves s a j ⟨some job, .holding, .unsent⟩ ⟨some job, .holding, .sent⟩
  | filled (job : ExecutionJob) (w : Work) (ticket : String) : a = .fillOrder j ticket →
      Moves s a j ⟨some job, w, .sent⟩ ⟨some job, w, .filled s.positions.fresh⟩
  | rejected (row : Option ExecutionJob) (w : Work) :
      Moves s a j ⟨row, w, .sent⟩ ⟨row, w, .rejected⟩
  | reporting (job : ExecutionJob) (o : BrokerOrder) (ok : Bool) : a = .beginReport j ok →
      Moves s a j ⟨some job, .holding, o⟩ ⟨some job, .reporting ok, o⟩
  | reported (job : ExecutionJob) (o : BrokerOrder) (ok : Bool) (e : String) :
      Moves s a j ⟨some job, .reporting ok, o⟩
        ⟨some (saved job (if ok then .success else .failed) e s.base.now), .done, o⟩
  | reconciled (job : ExecutionJob) (w : Work) (o : BrokerOrder) : job.status = .running →
      Moves s a j ⟨some job, w, o⟩ ⟨some (saved job .success "" s.base.now), w, o⟩

variable {s : State}

lemma track_withWork (s : State) (i j : ℕ) (work : Work) :
    (s.withWork i work).track j = if j = i then (s.track j).putWork work else s.track j := by
  unfold State.track State.withWork
  by_cases h : j = i
  · subst h; simp [Track.putWork]
  · simp [h]

lemma track_withOrder (s : State) (i j : ℕ) (order : BrokerOrder) :
    (s.withOrder i order).track j = if j = i then (s.track j).putOrder order else s.track j := by
  unfold State.track State.withOrder
  by_cases h : j = i
  · subst h; simp [Track.putOrder]
  · simp [h]

lemma track_saveJob (s : State) (i j : ℕ) (status : JobStatus) (e : String) {job : ExecutionJob}
    (hjob : s.base.db.jobs.get i = some job) :
    (s.saveJob i status e).track j =
      if j = i then
        (s.track j).putJob (saved job status e (if status.isTerminal then some s.base.now else none))
      else s.track j := by
  unfold State.track State.saveJob State.withBase
  dsimp only [Promotion.step, Promotion.State.withDb]
  rw [Table.get_modify]
  by_cases h : j = i
  · subst h
    simp only [if_true, hjob, Option.map_some]
    rfl
  · simp [h]

lemma track_saveJob_withWork (s : State) (i j : ℕ) (status : JobStatus) (e : String) (work : Work)
    {job : ExecutionJob} (hjob : s.base.db.jobs.get i = some job) :
    ((s.saveJob i status e).withWork i work).track j =
      if j = i then
        ((s.track j).putJob (saved job status e
          (if status.isTerminal then some s.base.now else none))).putWork work
      else s.track j := by
  rw [track_withWork, track_saveJob s i j status e hjob]
  by_cases h : j = i
  · rw [if_pos h, if_pos h, if_pos h]
  · rw [if_neg h, if_neg h, if_neg h]

lemma track_eq {j : ℕ} {job : ExecutionJob} {work : Work} {order : BrokerOrder}
    (hjob : s.base.db.jobs.get j = some job) (hwork : s.works j = work)
    (horder : s.orders j = order) : s.track j = ⟨some job, work, order⟩ := by
  rw [State.track, hjob, hwork, horder]

lemma moves_of_eq {s' : State} {a : Action} {j : ℕ} (h : s'.track j = s.track j) :
    Moves s a j (s.track j) (s'.track j) := by
  rw [h]
  exact .stays _

/-- A step that concerns one job leaves the others alone. -/
lemma moves_of_one {s' : State} {a : Action} {i : ℕ} {f : Track → Track}
    (h : ∀ j, s'.track j = if j = i then f (s.track j) else s.track j)
    (hi : Moves s a i (s.track i) (f (s.track i))) (j : ℕ) :
    Moves s a j (s.track j) (s'.track j) := by
  by_cases hj : j = i
  · subst hj
    rw [h, if_pos rfl]
    exact hi
  · exact moves_of_eq (by rw [h, if_neg hj])

lemma moves_promotion (s : State) (a : Promotion.Action) (j : ℕ) :
    Moves s (.promotion a) j (s.track j) ((step s (.promotion a)).track j) := by
  dsimp only [step]
  cases ha : seenHere s a with
  | none => exact .stays _
  | some a' =>
    have hrow := row_step s.base (a := a') j ?_
    · dsimp only [State.withBase, State.track]
      generalize hold : s.base.db.jobs.get j = row at hrow
      generalize (Promotion.step s.base a').db.jobs.get j = row' at hrow
      cases hrow with
      | stays => exact .stays _
      | created p session e hcommit hp he =>
        have : a = .commit p .done := by
          cases a <;> simp only [seenHere, Option.some.injEq, reduceCtorEq] at ha <;>
            first | exact ha.trans hcommit | (rw [← ha] at hcommit; cases hcommit)
        exact .created p session e _ _ (by rw [this]) hp he
      | cancelled c l job hcancel hfree hpending =>
        refine .cancelled job _ _ ?_ hpending
        have hl : s.locked j = false := by
          subst hcancel
          cases a <;> simp only [seenHere, Option.some.injEq, reduceCtorEq,
            Promotion.Action.cancelJobs.injEq] at ha
          rw [← ha.2, Bool.or_eq_false_iff] at hfree
          exact hfree.1
        simpa [State.locked] using hl
    · rintro i status e t rfl
      cases a <;> simp [seenHere] at ha

/-- Every step moves every job. -/
theorem step_moves (s : State) (a : Action) (j : ℕ) :
    Moves s a j (s.track j) ((step s a).track j) := by
  cases a with
  | promotion a => exact moves_promotion s a j
  | lockJob i =>
    dsimp only [step, lockJob, onJob]
    cases hjob : s.base.db.jobs.get i with
    | none => exact .stays _
    | some job =>
      dsimp only
      split_ifs with h
      · refine moves_of_one (f := .putWork .claiming) (fun j => track_withWork s i j _) ?_ j
        rw [track_eq hjob h.2 rfl]
        exact .locked job _ rfl h.1
      · exact .stays _
  | unlockJob i =>
    dsimp only [step, unlockJob]
    split_ifs with h
    · refine moves_of_one (f := .putWork .idle) (fun j => track_withWork s i j _) ?_ j
      unfold State.track
      rw [h]
      exact .unlocked _ _
    · exact .stays _
  | claimJob i refusal =>
    dsimp only [step, claimJob, onJob]
    cases hjob : s.base.db.jobs.get i with
    | none => exact .stays _
    | some job =>
      dsimp only
      split_ifs with h
      · cases refusal with
        | none =>
          refine moves_of_one (f := fun t => (t.putJob (saved job .running "" none)).putWork .holding)
            (fun j => track_saveJob_withWork s i j .running "" .holding hjob) ?_ j
          rw [track_eq hjob h rfl]
          exact .claimed job _ rfl
        | some reason =>
          refine moves_of_one
            (f := fun t => (t.putJob (saved job .failed reason s.base.now)).putWork .done)
            (fun j => track_saveJob_withWork s i j .failed reason .done hjob) ?_ j
          rw [track_eq hjob h rfl]
          exact .refused job _ reason
      · exact .stays _
  | sendOrder i =>
    dsimp only [step, sendOrder, onJob]
    cases hjob : s.base.db.jobs.get i with
    | none => exact .stays _
    | some job =>
      dsimp only
      split_ifs with h
      · refine moves_of_one (f := .putOrder .sent) (fun j => track_withOrder s i j _) ?_ j
        rw [track_eq hjob h.2.1 h.2.2]
        exact .sent job rfl
      · exact .stays _
  | fillOrder i ticket =>
    dsimp only [step, fillOrder, onJob]
    cases hjob : s.base.db.jobs.get i with
    | none => exact .stays _
    | some job =>
      dsimp only
      split_ifs with h
      · refine moves_of_one (f := .putOrder (.filled s.positions.fresh))
          (fun j => track_withOrder s i j _) ?_ j
        rw [track_eq hjob rfl h]
        exact .filled job _ ticket rfl
      · exact .stays _
  | rejectOrder i =>
    dsimp only [step, rejectOrder]
    split_ifs with h
    · refine moves_of_one (f := .putOrder .rejected) (fun j => track_withOrder s i j _) ?_ j
      unfold State.track
      rw [h]
      exact .rejected _ _
    · exact .stays _
  | openElsewhere | closePosition => exact .stays _
  | ingest p stale =>
    refine moves_of_eq ?_
    dsimp only [step, ingest]
    cases s.positions.get p <;> rfl
  | beginReport i ok =>
    dsimp only [step, beginReport, onJob]
    cases hjob : s.base.db.jobs.get i with
    | none => exact .stays _
    | some job =>
      dsimp only
      split_ifs with h
      · refine moves_of_one (f := .putWork (.reporting ok)) (fun j => track_withWork s i j _) ?_ j
        rw [track_eq hjob h.2 rfl]
        exact .reporting job _ ok rfl
      · exact .stays _
  | saveReport i e =>
    dsimp only [step, saveReport, onJob]
    cases hjob : s.base.db.jobs.get i with
    | none => exact .stays _
    | some job =>
      dsimp only
      cases hwork : s.works i with
      | reporting ok =>
        refine moves_of_one (i := i)
          (f := fun t => (t.putJob (saved job (if ok then .success else .failed) e
            s.base.now)).putWork .done) (fun j => ?_) ?_ j
        · rw [track_saveJob_withWork s i j _ e .done hjob]
          cases ok <;> rfl
        · rw [track_eq hjob hwork rfl]
          exact .reported job _ ok e
      | idle | claiming | holding | done => exact .stays _
  | reconcile i =>
    dsimp only [step, reconcile, onJob]
    cases hjob : s.base.db.jobs.get i with
    | none => exact .stays _
    | some job =>
      dsimp only
      split_ifs with h
      · refine moves_of_one (f := .putJob (saved job .success "" s.base.now))
          (fun j => track_saveJob s i j .success "" hjob) ?_ j
        rw [track_eq hjob rfl rfl]
        exact .reconciled job _ _ h.1
      · exact .stays _
  | findPlan r k =>
    refine moves_of_eq ?_
    dsimp only [step]
    cases s.resolvers r with
    | idle =>
      dsimp only [findPlan]
      cases s.base.db.plans.get k with
      | none => rfl
      | some plan => dsimp only; split_ifs <;> rfl
    | found | checking | settled => rfl
  | readPlanLegs r =>
    refine moves_of_eq ?_
    dsimp only [step]
    cases s.resolvers r <;> rfl
  | checkLeg r =>
    refine moves_of_eq ?_
    dsimp only [step]
    cases s.resolvers r <;> rfl
  | freeSlot r =>
    refine moves_of_eq ?_
    dsimp only [step]
    cases s.resolvers r <;> rfl

section Facts

variable {a : Action} {j : ℕ} {t t' : Track}

lemma Moves.kept (h : Moves s a j t t') {job : ExecutionJob} (hjob : t.job = some job) :
    ∃ job', t'.job = some job' ∧ job'.payload = job.payload ∧ job'.accountId = job.accountId ∧
      job'.jobType = job.jobType := by
  cases h with
  | created => cases hjob
  | stays | unlocked | rejected => exact ⟨job, hjob, rfl, rfl, rfl⟩
  | _ =>
    cases hjob
    exact ⟨_, rfl, rfl, rfl, rfl⟩

lemma Moves.new (h : Moves s a j t t') (hnone : t.job = none) {job : ExecutionJob}
    (hjob : t'.job = some job) :
    ∃ p session e, a = .promotion (.commit p .done) ∧ s.base.promoters p = .ready session ∧
      e ∈ session.legs ∧ job = orderJob s.base.env session e.2 ∧ t'.work = t.work ∧
      t'.order = t.order := by
  cases h with
  | created p session e w o ha hp he =>
    cases hjob
    exact ⟨p, session, e, ha, hp, he, rfl, rfl, rfl⟩
  | stays | unlocked | rejected => rw [hnone] at hjob; cases hjob
  | _ => cases hnone

/-- Nothing happens to a job that does not exist, a pending job has no order, and a claim holds a
pending job. -/
structure Track.Orderly (t : Track) : Prop where
  unborn : t.job = none → t.order = .unsent ∧ t.work = .idle
  pending : ∀ job, t.job = some job → job.status = .pending →
    t.order = .unsent ∧ (t.work = .idle ∨ t.work = .claiming)
  claiming : t.work = .claiming → ∃ job, t.job = some job ∧ job.status = .pending

lemma Moves.orderly (h : Moves s a j t t') (ht : t.Orderly) : t'.Orderly := by
  cases h with
  | stays => exact ht
  | created p session e w o =>
    obtain ⟨horder, hwork⟩ := ht.unborn rfl
    refine ⟨fun hn => (nomatch hn), fun job hjob hp => ⟨horder, .inl hwork⟩, fun hw => ?_⟩
    exact absurd (hwork.symm.trans hw) (by simp)
  | cancelled job w o hw =>
    exact ⟨fun hn => (nomatch hn), (by rintro _ ⟨⟩ hp; cases hp), fun hc => absurd hc hw⟩
  | locked job o _ hpending =>
    refine ⟨fun hn => (nomatch hn), ?_, fun _ => ⟨job, rfl, hpending⟩⟩
    rintro _ ⟨⟩ hp
    exact ⟨(ht.pending job rfl hp).1, .inr rfl⟩
  | unlocked row o =>
    obtain ⟨job, hjob, hpending⟩ := ht.claiming rfl
    refine ⟨fun hn => absurd (hjob.symm.trans hn) (by simp), fun job' hjob' hp => ?_, ?_⟩
    · exact ⟨(ht.pending job' hjob' hp).1, .inl rfl⟩
    · exact fun hc => nomatch hc
  | claimed job o =>
    exact ⟨fun hn => (nomatch hn), (by rintro _ ⟨⟩ hp; cases hp), fun hc => nomatch hc⟩
  | refused job o reason =>
    exact ⟨fun hn => (nomatch hn), (by rintro _ ⟨⟩ hp; cases hp), fun hc => nomatch hc⟩
  | sent job =>
    refine ⟨fun hn => (nomatch hn), ?_, fun hc => nomatch hc⟩
    rintro _ ⟨⟩ hp
    rcases (ht.pending job rfl hp).2 with hw | hw <;> cases hw
  | filled job w ticket =>
    refine ⟨fun hn => (nomatch hn), ?_, ht.claiming⟩
    rintro _ ⟨⟩ hp
    exact nomatch (ht.pending job rfl hp).1
  | rejected row w =>
    refine ⟨fun hn => (nomatch (ht.unborn hn).1), ?_, ht.claiming⟩
    exact fun job hjob hp => nomatch (ht.pending job hjob hp).1
  | reporting job o ok =>
    refine ⟨fun hn => (nomatch hn), ?_, fun hc => nomatch hc⟩
    rintro _ ⟨⟩ hp
    rcases (ht.pending job rfl hp).2 with hw | hw <;> cases hw
  | reported job o ok e =>
    refine ⟨fun hn => (nomatch hn), ?_, fun hc => nomatch hc⟩
    rintro _ ⟨⟩ hp
    cases ok <;> cases hp
  | reconciled job w o hrunning =>
    refine ⟨fun hn => (nomatch hn), (by rintro _ ⟨⟩ hp; cases hp), fun hc => ?_⟩
    obtain ⟨job', hjob', hpending⟩ := ht.claiming hc
    cases hjob'
    exact nomatch hrunning.symm.trans hpending

lemma Moves.not_pending (h : Moves s a j t t') {job job' : ExecutionJob}
    (hjob : t.job = some job) (hno : job.status ≠ .pending) (hjob' : t'.job = some job') :
    job'.status ≠ .pending := by
  cases h with
  | created => cases hjob
  | stays | unlocked | rejected =>
    rw [hjob] at hjob'
    cases hjob'
    exact hno
  | locked | sent | filled | reporting =>
    cases hjob
    cases hjob'
    exact hno
  | cancelled | claimed | refused | reconciled => cases hjob'; exact fun hn => nomatch hn
  | reported _ _ ok => cases hjob'; cases ok <;> exact fun hn => nomatch hn

lemma Moves.order_filled (h : Moves s a j t t') {p : ℕ} (hp : t.order = .filled p) :
    t'.order = .filled p := by
  cases h with
  | sent | filled | rejected => cases hp
  | _ => exact hp

lemma Moves.of_order_filled (h : Moves s a j t t') {p : ℕ} (hp : t'.order = .filled p) :
    t.order = .filled p ∨
      t.order = .sent ∧ p = s.positions.fresh ∧ ∃ ticket, a = .fillOrder j ticket := by
  cases h with
  | sent | rejected => cases hp
  | filled job w ticket ha => cases hp; exact .inr ⟨rfl, rfl, ticket, ha⟩
  | _ => exact .inl hp

end Facts

/-! ### Who acts -/

inductive Actor where
  /-- The promotions and the workers. -/
  | platform
  | broker
  | sync
  | monitor
  deriving DecidableEq

def Action.actor : Action → Actor
  | .fillOrder .. | .openElsewhere _ | .closePosition _ => .broker
  | .ingest .. => .sync
  | .findPlan .. | .readPlanLegs _ | .checkLeg _ | .freeSlot _ => .monitor
  | _ => .platform

/-- What the others leave alone. -/
structure Frame (a : Action) (s s' : State) : Prop where
  positions : a.actor ≠ .broker → s'.positions = s.positions
  trades : a.actor ≠ .sync → s'.trades = s.trades
  resolvers : a.actor ≠ .monitor → s'.resolvers = s.resolvers
  base : a.actor = .broker ∨ a.actor = .sync → s'.base = s.base

lemma Frame.platform {a : Action} {s' : State} (ha : a.actor = .platform)
    (hpositions : s'.positions = s.positions) (htrades : s'.trades = s.trades)
    (hresolvers : s'.resolvers = s.resolvers) : Frame a s s' := by
  refine ⟨fun _ => hpositions, fun _ => htrades, fun _ => hresolvers, ?_⟩
  rw [ha]
  rintro (h | h) <;> cases h

lemma Frame.monitor {a : Action} {s' : State} (ha : a.actor = .monitor)
    (hpositions : s'.positions = s.positions) (htrades : s'.trades = s.trades) : Frame a s s' := by
  refine ⟨fun _ => hpositions, fun _ => htrades, fun h => absurd ha h, ?_⟩
  rw [ha]
  rintro (h | h) <;> cases h

lemma Frame.broker {a : Action} {s' : State} (ha : a.actor = .broker)
    (htrades : s'.trades = s.trades) (hresolvers : s'.resolvers = s.resolvers)
    (hbase : s'.base = s.base) : Frame a s s' :=
  ⟨fun h => absurd ha h, fun _ => htrades, fun _ => hresolvers, fun _ => hbase⟩

lemma Frame.onJob {a : Action} {j : ℕ} {f : ExecutionJob → State} (hnone : Frame a s s)
    (hsome : ∀ job, Frame a s (f job)) : Frame a s (onJob s j f) := by
  unfold Orders.onJob
  cases s.base.db.jobs.get j with
  | none => exact hnone
  | some job => exact hsome job

theorem frame (s : State) (a : Action) : Frame a s (step s a) := by
  cases a with
  | promotion a =>
    dsimp only [step]
    cases seenHere s a <;> exact .platform rfl rfl rfl rfl
  | lockJob j =>
    refine .onJob (.platform rfl rfl rfl rfl) fun job => ?_
    split_ifs <;> exact .platform rfl rfl rfl rfl
  | unlockJob j =>
    dsimp only [step, unlockJob]
    split_ifs <;> exact .platform rfl rfl rfl rfl
  | claimJob j refusal =>
    refine .onJob (.platform rfl rfl rfl rfl) fun job => ?_
    split_ifs <;> cases refusal <;> exact .platform rfl rfl rfl rfl
  | sendOrder j =>
    refine .onJob (.platform rfl rfl rfl rfl) fun job => ?_
    split_ifs <;> exact .platform rfl rfl rfl rfl
  | fillOrder j ticket =>
    refine .onJob (.broker rfl rfl rfl rfl) fun job => ?_
    split_ifs <;> exact .broker rfl rfl rfl rfl
  | rejectOrder j =>
    dsimp only [step, rejectOrder]
    split_ifs <;> exact .platform rfl rfl rfl rfl
  | openElsewhere | closePosition => exact .broker rfl rfl rfl rfl
  | ingest p stale =>
    dsimp only [step, ingest]
    cases s.positions.get p <;>
      exact ⟨fun _ => rfl, fun h => absurd rfl h, fun _ => rfl, fun _ => rfl⟩
  | beginReport j ok =>
    refine .onJob (.platform rfl rfl rfl rfl) fun job => ?_
    split_ifs <;> exact .platform rfl rfl rfl rfl
  | saveReport j e =>
    refine .onJob (.platform rfl rfl rfl rfl) fun job => ?_
    cases s.works j <;> exact .platform rfl rfl rfl rfl
  | reconcile j =>
    refine .onJob (.platform rfl rfl rfl rfl) fun job => ?_
    split_ifs <;> exact .platform rfl rfl rfl rfl
  | findPlan r k =>
    dsimp only [step]
    cases s.resolvers r with
    | idle =>
      dsimp only [findPlan]
      cases s.base.db.plans.get k with
      | none => exact .monitor rfl rfl rfl
      | some plan => dsimp only; split_ifs <;> exact .monitor rfl rfl rfl
    | found | checking | settled => exact .monitor rfl rfl rfl
  | readPlanLegs r =>
    dsimp only [step]
    cases s.resolvers r <;> exact .monitor rfl rfl rfl
  | checkLeg r =>
    dsimp only [step]
    cases s.resolvers r <;> exact .monitor rfl rfl rfl
  | freeSlot r =>
    dsimp only [step]
    cases s.resolvers r <;> exact .monitor rfl rfl rfl

/-! ### Positions -/

inductive PositionMoves (s : State) (a : Action) (p : ℕ) :
    Option Position → Option Position → Prop
  | stays (row : Option Position) : PositionMoves s a p row row
  | filled (j : ℕ) (job : ExecutionJob) (ticket : String) : a = .fillOrder j ticket →
      s.base.db.jobs.get j = some job → s.orders j = .sent →
      (step s a).orders j = .filled p →
      PositionMoves s a p none (some (positionOf job j ticket s.base.now))
  | elsewhere (trade : Trade) : a = .openElsewhere trade →
      PositionMoves s a p none (some { trade with closeTime := none, jobId := none })
  | closed (position : Position) (closeTime : Option Time) :
      (position.closeTime.isSome → closeTime.isSome) →
      PositionMoves s a p (some position) (some { position with closeTime })

lemma positionMoves_of_eq {a : Action} (p : ℕ) (h : (step s a).positions = s.positions) :
    PositionMoves s a p (s.positions.get p) ((step s a).positions.get p) := by
  rw [h]
  exact .stays _

lemma positionMoves_insert {a : Action} {position : Position} (p : ℕ)
    (h : (step s a).positions = s.positions.insert s.positions.fresh position)
    (hnew : p = s.positions.fresh → PositionMoves s a p none (some position)) :
    PositionMoves s a p (s.positions.get p) ((step s a).positions.get p) := by
  rw [h, Table.get_insert _ s.positions.fresh_not_mem]
  by_cases hp : p = s.positions.fresh
  · rw [if_pos hp, hp, Table.get_eq_none_iff.mpr s.positions.fresh_not_mem]
    exact hp ▸ hnew hp
  · rw [if_neg hp]
    exact .stays _

theorem position_step (s : State) (a : Action) (p : ℕ) :
    PositionMoves s a p (s.positions.get p) ((step s a).positions.get p) := by
  cases a with
  | fillOrder j ticket =>
    cases hjob : s.base.db.jobs.get j with
    | none =>
      refine positionMoves_of_eq p ?_
      simp only [step, fillOrder, onJob, hjob]
    | some job =>
      by_cases hsent : s.orders j = .sent
      · have hstep : step s (.fillOrder j ticket) =
            { s.withOrder j (.filled s.positions.fresh) with
              positions := s.positions.insert s.positions.fresh
                (positionOf job j ticket s.base.now) } := by
          simp only [step, fillOrder, onJob, hjob, if_pos hsent]
        refine positionMoves_insert p (by rw [hstep]) ?_
        rintro rfl
        refine .filled j job ticket rfl hjob hsent ?_
        rw [hstep]
        exact Function.update_self ..
      · refine positionMoves_of_eq p ?_
        simp only [step, fillOrder, onJob, hjob, if_neg hsent]
  | openElsewhere trade => exact positionMoves_insert p rfl fun _ => .elsewhere trade rfl
  | closePosition q =>
    dsimp only [step, closePosition]
    rw [Table.get_modify]
    split_ifs with hp
    · subst hp
      cases s.positions.get p with
      | none => exact .stays _
      | some position =>
        refine .closed position _ fun _ => ?_
        simp
    · exact .stays _
  | _ => exact positionMoves_of_eq p ((frame s _).positions (by simp [Action.actor]))

lemma PositionMoves.kept {a : Action} {p : ℕ} {row row' : Option Position}
    (h : PositionMoves s a p row row') {position : Position} (hrow : row = some position) :
    ∃ closeTime, row' = some { position with closeTime } ∧
      (position.closeTime.isSome → closeTime.isSome) := by
  cases h with
  | stays => exact ⟨position.closeTime, hrow, id⟩
  | filled | elsewhere => cases hrow
  | closed _ closeTime hclose =>
    cases hrow
    exact ⟨closeTime, rfl, hclose⟩

/-! ### The promotions behind a step -/

inductive BaseStep (s : State) : Action → Promotion.State → Prop
  | stays (a : Action) : BaseStep s a s.base
  | promotes (b b' : Promotion.Action) : seenHere s b = some b' →
      BaseStep s (.promotion b) (Promotion.step s.base b')
  | saves (a : Action) (j : ℕ) (status : JobStatus) (e : String) (t : Option Time) :
      BaseStep s a (Promotion.step s.base (.workJob j status e t))
  | frees (r k : ℕ) : s.resolvers r = .settled k →
      BaseStep s (.freeSlot r) (Promotion.step s.base (.closePlan k))

lemma BaseStep.onJob {a : Action} {j : ℕ} {f : ExecutionJob → State}
    (h : ∀ job, BaseStep s a (f job).base) : BaseStep s a (onJob s j f).base := by
  unfold Orders.onJob
  cases s.base.db.jobs.get j with
  | none => exact .stays a
  | some job => exact h job

theorem base_step (s : State) (a : Action) : BaseStep s a (step s a).base := by
  cases a with
  | promotion b =>
    dsimp only [step]
    cases hb : seenHere s b with
    | none => exact .stays _
    | some b' => exact .promotes b b' hb
  | lockJob j =>
    refine .onJob fun job => ?_
    split_ifs <;> exact .stays _
  | unlockJob j =>
    dsimp only [step, unlockJob]
    split_ifs <;> exact .stays _
  | claimJob j refusal =>
    refine .onJob fun job => ?_
    split_ifs
    · cases refusal <;> exact .saves ..
    · exact .stays _
  | sendOrder j =>
    refine .onJob fun job => ?_
    split_ifs <;> exact .stays _
  | rejectOrder j =>
    dsimp only [step, rejectOrder]
    split_ifs <;> exact .stays _
  | beginReport j ok =>
    refine .onJob fun job => ?_
    split_ifs <;> exact .stays _
  | saveReport j e =>
    refine .onJob fun job => ?_
    cases s.works j with
    | reporting ok => exact .saves ..
    | idle | claiming | holding | done => exact .stays _
  | reconcile j =>
    refine .onJob fun job => ?_
    split_ifs
    · exact .saves ..
    · exact .stays _
  | fillOrder | openElsewhere | closePosition =>
    rw [(frame s _).base (.inl rfl)]
    exact .stays _
  | ingest =>
    rw [(frame s _).base (.inr rfl)]
    exact .stays _
  | findPlan r k =>
    dsimp only [step]
    cases s.resolvers r with
    | idle =>
      dsimp only [findPlan]
      cases s.base.db.plans.get k with
      | none => exact .stays _
      | some plan => dsimp only; split_ifs <;> exact .stays _
    | found | checking | settled => exact .stays _
  | readPlanLegs r =>
    dsimp only [step]
    cases s.resolvers r <;> exact .stays _
  | checkLeg r =>
    dsimp only [step]
    cases s.resolvers r <;> exact .stays _
  | freeSlot r =>
    dsimp only [step]
    cases hr : s.resolvers r with
    | settled k => exact .frees r k hr
    | idle | found | checking => exact .stays _

lemma base_inv_step (h : Promotion.Inv s.base) (a : Action) : Promotion.Inv (step s a).base := by
  have hbase := base_step s a
  generalize (step s a).base = base' at hbase
  cases hbase with
  | stays => exact h
  | promotes | saves | frees => exact Promotion.inv_step h _

end Orders
end GuvFX
