/-
# The life of an execution job

Workers claim and report, the monitor chain reclaims and reconciles, and any of these may act
between the two halves of another.  A job moves from pending to running to a final status and
never back, whatever the order of the steps: so it is handed out once, and leaves the running
status once.  Its outcome is another matter.  A report checks that the job is running and saves
without looking again, so a report that passed its check before another one, or before the monitor
chain, replaces the outcome that is already there.
-/
import GuvFX.Lib.Runs
import GuvFX.Execution.JobQueue

namespace GuvFX
namespace JobQueue

open Runs
open Consumer (JobType JobStatus)

/-! ### The system -/

/-- How far the report of a worker has come. -/
inductive Completion where
  | idle
  | accepted (k : ℕ) (job : ExecutionJob) (outcome : Outcome)
  | saved (k : ℕ) (job : ExecutionJob) (outcome : Outcome)

/-- How far a run of the monitor chain has come, and when it began. -/
inductive Monitor where
  | idle
  | reclaiming (kind : Repeatable) (ids : List ℕ) (now : Time)
  | reconciling (jobs : List (ℕ × ExecutionJob)) (now : Time)

structure State where
  env : Env
  now : Time
  jobs : Table ExecutionJob
  completions : ℕ → Completion
  monitors : ℕ → Monitor

inductive Action where
  | setEnv (env : Env)
  | tick (d : ℕ)
  | createJob (k : ℕ) (job : ExecutionJob)
  | nextJob (worker : Option WorkerIdentity) (query : Query) (locked : ℕ → Bool)
  | checkCompletion (c k : ℕ) (worker : Option WorkerIdentity) (report : Report)
  | saveOutcome (c : ℕ)
  /-- The sync after an order, which may fail. -/
  | queueSync (c : ℕ) (ok : Bool)
  | readOrphans (m : ℕ) (kind : Repeatable)
  | reclaim (m : ℕ)
  | readOrders (m : ℕ)
  | reconcileNext (m : ℕ)

namespace State

def withJobs (s : State) (jobs : Table ExecutionJob) : State := { s with jobs }

def withCompletion (s : State) (c : ℕ) (completion : Completion) : State :=
  { s with completions := Function.update s.completions c completion }

def withMonitor (s : State) (m : ℕ) (monitor : Monitor) : State :=
  { s with monitors := Function.update s.monitors m monitor }

end State

def step (s : State) : Action → State
  | .setEnv env => { s with env }
  | .tick d => { s with now := s.now + d }
  | .createJob k job => s.withJobs (s.jobs.insert k { job with status := .pending })
  | .nextJob worker query locked =>
    s.withJobs (JobQueue.nextJob s.env s.now worker query locked s.jobs).1
  | .checkCompletion c k worker report =>
    match s.completions c, JobQueue.checkCompletion s.env worker s.jobs k report with
    | .idle, .ok (job, outcome) => s.withCompletion c (.accepted k job outcome)
    | _, _ => s
  | .saveOutcome c =>
    match s.completions c with
    | .accepted k job outcome =>
      (s.withJobs (JobQueue.saveOutcome s.jobs k outcome s.now)).withCompletion c
        (.saved k job outcome)
    | _ => s
  | .queueSync c ok =>
    match s.completions c with
    | .saved k job outcome =>
      let jobs := if ok then queueSyncPositionsJob s.env s.jobs k job outcome s.now else s.jobs
      (s.withJobs jobs).withCompletion c .idle
    | _ => s
  | .readOrphans m kind =>
    match s.monitors m with
    | .idle =>
      s.withMonitor m (.reclaiming kind ((orphans s.jobs kind.jobType s.now).map Prod.fst) s.now)
    | _ => s
  | .reclaim m =>
    match s.monitors m with
    | .reclaiming kind ids now =>
      (s.withJobs (reclaimOrphanedJobs kind ids now s.jobs)).withMonitor m .idle
    | _ => s
  | .readOrders m =>
    match s.monitors m with
    | .idle => s.withMonitor m (.reconciling (orphanedPlaceOrders s.jobs s.now) s.now)
    | _ => s
  | .reconcileNext m =>
    match s.monitors m with
    | .reconciling (e :: rest) now =>
      (s.withJobs (reconcileOrphanedPlaceOrder s.env now s.jobs e)).withMonitor m
        (.reconciling rest now)
    | .reconciling [] _ => s.withMonitor m .idle
    | _ => s

/-! ### What a step does to one job -/

/-- The moves of one job: it is queued, claimed, settled by the monitor chain, or overwritten by
the report `outcome`. -/
inductive Move (outcome : Option Outcome) : Option ExecutionJob → Option ExecutionJob → Prop
  | stay (o : Option ExecutionJob) : Move outcome o o
  | queue (job : ExecutionJob) : job.status = .pending → Move outcome none (some job)
  | claim (job job' : ExecutionJob) : job.status = .pending →
      job'.status = .running ∨ job'.status = .failed → Move outcome (some job) (some job')
  | settle (job job' : ExecutionJob) : job.status = .running → job'.status.isTerminal = true →
      Move outcome (some job) (some job')
  | report (job job' : ExecutionJob) (o : Outcome) : outcome = some o → job'.status = o.status →
      job'.result = o.result → Move outcome (some job) (some job')

/-- The outcome that an action saves for the job `k`. -/
def savedOutcome (s : State) (k : ℕ) : Action → Option Outcome
  | .saveOutcome c =>
    match s.completions c with
    | .accepted j _ outcome => if j = k then some outcome else none
    | _ => none
  | _ => none

lemma move_insert {outcome : Option Outcome} (jobs : Table ExecutionJob) (j : ℕ)
    {job : ExecutionJob} (hjob : job.status = .pending) (k : ℕ) :
    Move outcome (jobs.get k) ((jobs.insert j job).get k) := by
  by_cases hj : j ∈ jobs.keys
  · rw [Table.insert_of_mem job hj]
    exact .stay _
  · rw [Table.get_insert job hj]
    by_cases hk : k = j
    · rw [if_pos hk, hk, Table.get_eq_none_iff.mpr hj]
      exact .queue job hjob
    · rw [if_neg hk]
      exact .stay _

lemma selectJob_pending {env : Env} {worker : Option WorkerIdentity} {query : Query}
    {jobs : Table ExecutionJob} {locked : ℕ → Bool} {j : ℕ} {job : ExecutionJob}
    (h : selectJob env worker query jobs locked = some (j, job)) :
    jobs.get j = some job ∧ job.status = .pending := by
  obtain ⟨type, -, htype⟩ := List.exists_of_findSome?_eq_some h
  have hmem := List.mem_of_find?_eq_some htype
  rw [List.mem_insertionSort, Table.mem_filter, decide_eq_true_iff] at hmem
  obtain ⟨hget, hclaim, -⟩ := hmem
  simp only [claimable, decide_eq_true_eq] at hclaim
  exact ⟨hget, hclaim.1⟩

lemma claimJob_status (env : Env) (now : Time) (worker : Option WorkerIdentity) (query : Query)
    (job : ExecutionJob) :
    (claimJob env now worker query job).status =
      if (dispatchRefusal env worker job).isSome then .failed else .running := by
  unfold claimJob
  cases dispatchRefusal env worker job <;> rfl

lemma move_nextJob {outcome : Option Outcome} (env : Env) (now : Time)
    (worker : Option WorkerIdentity) (query : Query) (locked : ℕ → Bool)
    (jobs : Table ExecutionJob) (k : ℕ) :
    Move outcome (jobs.get k) ((nextJob env now worker query locked jobs).1.get k) := by
  unfold nextJob
  split_ifs
  · exact .stay _
  · cases hsel : selectJob env worker query jobs locked with
    | none => exact .stay _
    | some e =>
      obtain ⟨hget, hpending⟩ := selectJob_pending hsel
      dsimp only
      rw [Table.get_modify]
      by_cases hk : k = e.1
      · rw [if_pos hk, hk, hget, Option.map_some]
        refine .claim _ _ hpending ?_
        rw [claimJob_status]
        split_ifs
        · exact .inr rfl
        · exact .inl rfl
      · rw [if_neg hk]
        exact .stay _

/-- The monitor chain leaves a job alone, or settles it if it is running. -/
def Settles (o o' : Option ExecutionJob) : Prop :=
  o' = o ∨ ∃ job job', o = some job ∧ o' = some job' ∧ job.status = .running ∧
    job'.status.isTerminal = true

lemma Settles.trans {o₁ o₂ o₃ : Option ExecutionJob} (h : Settles o₁ o₂) (h' : Settles o₂ o₃) :
    Settles o₁ o₃ := by
  rcases h' with rfl | ⟨job, job', rfl, rfl, hrun, hterm⟩
  · exact h
  · rcases h with heq | ⟨job₀, job₁, rfl, heq, hrun₀, hterm₁⟩
    · exact .inr ⟨job, job', heq.symm, rfl, hrun, hterm⟩
    · cases heq
      rw [hrun] at hterm₁
      cases hterm₁

lemma Settles.move {o o' : Option ExecutionJob} (h : Settles o o') (outcome : Option Outcome) :
    Move outcome o o' := by
  rcases h with rfl | ⟨job, job', rfl, rfl, hrun, hterm⟩
  · exact .stay _
  · exact .settle job job' hrun hterm

lemma settles_updateRunning (jobs : Table ExecutionJob) (j : ℕ) {f : ExecutionJob → ExecutionJob}
    (hf : ∀ job, (f job).status.isTerminal = true) (k : ℕ) :
    Settles (jobs.get k) ((updateRunning jobs j f).get k) := by
  rw [updateRunning, Table.get_modify]
  by_cases hk : k = j
  · subst hk
    rw [if_pos rfl]
    cases hget : jobs.get k with
    | none => exact .inl rfl
    | some job =>
      rw [Option.map_some]
      by_cases hrun : job.status = .running
      · rw [if_pos hrun]
        exact .inr ⟨job, f job, rfl, rfl, hrun, hf job⟩
      · rw [if_neg hrun]
        exact .inl rfl
  · rw [if_neg hk]
    exact .inl rfl

lemma settles_reclaimOrphanedJobs (kind : Repeatable) (ids : List ℕ) (now : Time)
    (jobs : Table ExecutionJob) (k : ℕ) :
    Settles (jobs.get k) ((reclaimOrphanedJobs kind ids now jobs).get k) := by
  unfold reclaimOrphanedJobs
  induction ids generalizing jobs with
  | nil => exact .inl rfl
  | cons j ids ih =>
    exact (settles_updateRunning jobs j (fun _ => rfl) k).trans (ih _)

lemma settles_reconcile (env : Env) (now : Time) (jobs : Table ExecutionJob)
    (e : ℕ × ExecutionJob) (k : ℕ) :
    Settles (jobs.get k) ((reconcileOrphanedPlaceOrder env now jobs e).get k) := by
  unfold reconcileOrphanedPlaceOrder
  cases landedTrade env e.2 with
  | none => exact .inl rfl
  | some trade => exact settles_updateRunning jobs e.1 (fun _ => rfl) k

lemma move_saveOutcome (jobs : Table ExecutionJob) (j : ℕ) (outcome : Outcome) (now : Time)
    (k : ℕ) :
    Move (if j = k then some outcome else none) (jobs.get k)
      ((saveOutcome jobs j outcome now).get k) := by
  rw [saveOutcome, Table.get_modify]
  by_cases hk : k = j
  · subst hk
    rw [if_pos rfl, if_pos rfl]
    cases jobs.get k with
    | none => exact .stay _
    | some job => exact .report job _ outcome rfl rfl rfl
  · rw [if_neg hk]
    exact .stay _

lemma move_queueSync {o : Option Outcome} (env : Env) (jobs : Table ExecutionJob) (j : ℕ)
    (job : ExecutionJob) (outcome : Outcome) (now : Time) (k : ℕ) :
    Move o (jobs.get k) ((queueSyncPositionsJob env jobs j job outcome now).get k) := by
  unfold queueSyncPositionsJob
  split_ifs
  · cases hsync : syncJob env j job now with
    | none => exact .stay _
    | some sync =>
      refine move_insert jobs jobs.fresh ?_ k
      dsimp only [syncJob] at hsync
      split_ifs at hsync
      all_goals
        cases hsync
        rfl
  · exact .stay _

lemma step_move (s : State) (a : Action) (k : ℕ) :
    Move (savedOutcome s k a) (s.jobs.get k) ((step s a).jobs.get k) := by
  cases a with
  | setEnv | tick => exact .stay _
  | createJob j job => exact move_insert s.jobs j rfl k
  | nextJob worker query locked => exact move_nextJob s.env s.now worker query locked s.jobs k
  | checkCompletion c j worker report =>
    dsimp only [step]
    split <;> exact .stay _
  | saveOutcome c =>
    dsimp only [step, savedOutcome]
    cases s.completions c with
    | accepted j job outcome => exact move_saveOutcome s.jobs j outcome s.now k
    | idle | saved => exact .stay _
  | queueSync c ok =>
    dsimp only [step]
    cases s.completions c with
    | saved j job outcome =>
      cases ok with
      | true => exact move_queueSync s.env s.jobs j job outcome s.now k
      | false => exact .stay _
    | idle | accepted => exact .stay _
  | readOrphans m kind | readOrders m =>
    dsimp only [step]
    cases s.monitors m <;> exact .stay _
  | reclaim m =>
    dsimp only [step]
    cases s.monitors m with
    | reclaiming kind ids now => exact (settles_reclaimOrphanedJobs kind ids now s.jobs k).move _
    | idle | reconciling => exact .stay _
  | reconcileNext m =>
    dsimp only [step]
    cases s.monitors m with
    | reconciling jobs now =>
      cases jobs with
      | nil => exact .stay _
      | cons e rest => exact (settles_reconcile s.env now s.jobs e k).move _
    | idle | reclaiming => exact .stay _

/-! ### The order of the statuses -/

def statusRank : JobStatus → ℕ
  | .pending => 1
  | .running => 2
  | .success | .failed => 3

def jobRank : Option ExecutionJob → ℕ
  | none => 0
  | some job => statusRank job.status

lemma statusRank_le (status : JobStatus) : statusRank status ≤ 3 := by cases status <;> decide

lemma statusRank_of_isTerminal {status : JobStatus} (h : status.isTerminal = true) :
    statusRank status = 3 := by
  cases status with
  | pending | running => cases h
  | success | failed => rfl

lemma jobRank_le (o : Option ExecutionJob) : jobRank o ≤ 3 := by
  cases o with
  | none => exact Nat.zero_le 3
  | some job => exact statusRank_le job.status

lemma Move.rank_le {outcome : Option Outcome} {o o' : Option ExecutionJob}
    (h : Move outcome o o') : jobRank o ≤ jobRank o' := by
  cases h with
  | stay => exact Nat.le_refl _
  | queue => exact Nat.zero_le _
  | claim job job' hpending hstatus =>
    rcases hstatus with hstatus | hstatus <;> simp [jobRank, statusRank, hpending, hstatus]
  | settle job job' _ hterm =>
    have htop : jobRank (some job') = 3 := statusRank_of_isTerminal hterm
    rw [htop]
    exact jobRank_le _
  | report job job' outcome _ hstatus =>
    have htop : jobRank (some job') = 3 := statusRank_of_isTerminal (hstatus ▸ outcome.isTerminal)
    rw [htop]
    exact jobRank_le _

lemma rank_mono (k : ℕ) (s : State) (a : Action) :
    jobRank (s.jobs.get k) ≤ jobRank ((step s a).jobs.get k) := (step_move s a k).rank_le

/-! ### Handed out once, finished once -/

/-- Does a worker receive the job `k` by this step? -/
def handsOut (k : ℕ) (s : State) : Action → Bool
  | .nextJob worker query locked =>
    (JobQueue.nextJob s.env s.now worker query locked s.jobs).2 = .job k
  | _ => false

/-- Does the job `k` leave the running status for a final one by this step? -/
def finishes (k : ℕ) (s : State) (a : Action) : Bool :=
  (s.jobs.get k).any (·.status = .running) && ((step s a).jobs.get k).any (·.status.isTerminal)

lemma of_handsOut {k : ℕ} {s : State} {a : Action} (h : handsOut k s a = true) :
    ∃ job job', s.jobs.get k = some job ∧ job.status = .pending ∧
      (step s a).jobs.get k = some job' ∧ job'.status = .running := by
  cases a with
  | nextJob worker query locked =>
    simp only [handsOut, decide_eq_true_eq] at h
    unfold nextJob at h
    split_ifs at h with hpartial
    cases hsel : selectJob s.env worker query s.jobs locked with
    | none => rw [hsel] at h; cases h
    | some e =>
      obtain ⟨hget, hpending⟩ := selectJob_pending hsel
      rw [hsel] at h
      dsimp only at h
      split_ifs at h with hrefused
      cases h
      refine ⟨e.2, claimJob s.env s.now worker query e.2, hget, hpending, ?_, ?_⟩
      · simp only [step, nextJob, if_neg hpartial, hsel, State.withJobs]
        rw [Table.get_modify_self, hget, Option.map_some]
      · rw [claimJob_status, if_neg hrefused]
  | _ => cases h

/-- In every run, each job is handed to one worker at most. -/
theorem handsOut_once (k : ℕ) (s : State) (as : List Action) :
    countSteps step (handsOut k) s as ≤ 1 := by
  refine countSteps_le_one 2 (fun s a => rank_mono k s a) ?_ s as
  intro s a h
  obtain ⟨job, job', hget, hpending, hget', hrunning⟩ := of_handsOut h
  rw [hget, hget']
  simp [jobRank, statusRank, hpending, hrunning]

/-- In every run, each job leaves the running status for a final one once at most. -/
theorem finishes_once (k : ℕ) (s : State) (as : List Action) :
    countSteps step (finishes k) s as ≤ 1 := by
  refine countSteps_le_one 3 (fun s a => rank_mono k s a) ?_ s as
  intro s a h
  simp only [finishes, Bool.and_eq_true, Option.any_eq_true, decide_eq_true_eq] at h
  obtain ⟨⟨job, hget, hrunning⟩, job', hget', hterm⟩ := h
  rw [hget, hget']
  refine ⟨?_, ?_⟩
  · simp [jobRank, statusRank, hrunning]
  · exact Nat.le_of_eq (statusRank_of_isTerminal hterm).symm

/-! ### Outcomes that are overwritten -/

/-- A final status and its result stay as they are. -/
def SameOutcome (o o' : Option ExecutionJob) : Prop :=
  ∀ job, o = some job → job.status.isTerminal = true →
    ∃ job', o' = some job' ∧ job'.status = job.status ∧ job'.result = job.result

/-- A report is saved for a job that is not final, or it repeats the outcome of the job. -/
def Fresh (s : State) (a : Action) : Prop :=
  ∀ k outcome, savedOutcome s k a = some outcome → ∀ job, s.jobs.get k = some job →
    job.status.isTerminal = true → outcome.status = job.status ∧ outcome.result = job.result

lemma SameOutcome.refl (o : Option ExecutionJob) : SameOutcome o o :=
  fun job hjob _ => ⟨job, hjob, rfl, rfl⟩

lemma SameOutcome.trans {o₁ o₂ o₃ : Option ExecutionJob} (h : SameOutcome o₁ o₂)
    (h' : SameOutcome o₂ o₃) : SameOutcome o₁ o₃ := by
  intro job hjob hterm
  obtain ⟨job₂, hjob₂, hstatus₂, hresult₂⟩ := h job hjob hterm
  obtain ⟨job₃, hjob₃, hstatus₃, hresult₃⟩ := h' job₂ hjob₂ (hstatus₂ ▸ hterm)
  exact ⟨job₃, hjob₃, by rw [hstatus₃, hstatus₂], by rw [hresult₃, hresult₂]⟩

lemma get_of_savedOutcome {s : State} {a : Action} {k : ℕ} {outcome : Outcome} {job : ExecutionJob}
    (h : savedOutcome s k a = some outcome) (hget : s.jobs.get k = some job) :
    ∃ job', (step s a).jobs.get k = some job' ∧ job'.status = outcome.status ∧
      job'.result = outcome.result := by
  cases a with
  | saveOutcome c =>
    dsimp only [savedOutcome] at h
    cases hc : s.completions c with
    | accepted j read o =>
      rw [hc] at h
      dsimp only at h
      split_ifs at h with hj
      cases h
      subst hj
      simp only [step, hc, State.withCompletion, State.withJobs, saveOutcome,
        Table.get_modify_self, hget, Option.map_some]
      exact ⟨_, rfl, rfl, rfl⟩
    | idle | saved => rw [hc] at h; cases h
  | _ => cases h

lemma sameOutcome_step_iff (s : State) (a : Action) :
    (∀ k, SameOutcome (s.jobs.get k) ((step s a).jobs.get k)) ↔ Fresh s a := by
  constructor
  · intro h k outcome hsaved job hget hterm
    obtain ⟨job', hget', hstatus, hresult⟩ := get_of_savedOutcome hsaved hget
    obtain ⟨job'', hget'', hstatus', hresult'⟩ := h k job hget hterm
    rw [hget'] at hget''
    cases hget''
    exact ⟨by rw [← hstatus, hstatus'], by rw [← hresult, hresult']⟩
  · intro h k job hget hterm
    have hmove := step_move s a k
    rw [hget] at hmove
    generalize (step s a).jobs.get k = o' at hmove
    cases hmove with
    | stay => exact ⟨job, rfl, rfl, rfl⟩
    | claim _ job' hpending => rw [hpending] at hterm; cases hterm
    | settle _ job' hrunning => rw [hrunning] at hterm; cases hterm
    | report _ job' outcome hsaved hstatus hresult =>
      obtain ⟨hsame, hsame'⟩ := h k outcome hsaved job hget hterm
      exact ⟨job', rfl, by rw [hstatus, hsame], by rw [hresult, hsame']⟩

/-- In a run, every job completes once: it leaves the running status for a final one at most once,
it is handed to one worker at most, and its final status and result are never replaced. -/
structure CompletesOnce (s : State) (as : List Action) : Prop where
  finishesOnce : ∀ k, countSteps step (finishes k) s as ≤ 1
  handedOutOnce : ∀ k, countSteps step (handsOut k) s as ≤ 1
  keepsOutcome : ∀ pre bs k, pre <+: bs → bs <+: as →
    SameOutcome ((run step s pre).jobs.get k) ((run step s bs).jobs.get k)

/-- Every job completes once in exactly the runs in which every report is fresh. -/
theorem completesOnce_iff (s : State) (as : List Action) :
    CompletesOnce s as ↔ StepsMeet step Fresh s as := by
  constructor
  · intro h
    rw [stepsMeet_iff]
    rintro pre a post rfl
    rw [← sameOutcome_step_iff]
    intro k
    have hkeeps := h.keepsOutcome pre (pre ++ [a]) k (List.prefix_append pre [a]) ⟨post, by simp⟩
    rwa [run_concat] at hkeeps
  · intro h
    refine ⟨fun k => finishes_once k s as, fun k => handsOut_once k s as, ?_⟩
    rintro pre _ k ⟨mid, rfl⟩ ⟨post, rfl⟩
    rw [run_append]
    have hmid := (stepsMeet_append.mp (stepsMeet_append.mp h).1).2
    generalize run step s pre = s₀ at hmid ⊢
    refine run_invariant_of_meets (P := fun s' => SameOutcome (s₀.jobs.get k) (s'.jobs.get k)) ?_
      (.refl _) hmid
    exact fun s' a hs' ha => hs'.trans ((sameOutcome_step_iff s' a).mpr ha k)

/-! ### A late report -/

def sampleEnv : Env where
  killReason := none
  nodes := .empty
  trades := Table.empty.insert 1
    { accountId := 1, comment := "WAY7L1", ticket := "900", openTime := 10 }
  executionGateEnabled := false
  dispatchGateRefusal := fun _ => none
  pinSubsystemEnabled := false
  hostedClaimRefusal := fun _ _ => none
  windowsUsername := fun _ => "worker"
  leaseTtlSeconds := 300
  syncLeaseTtlSeconds := 60

def sampleState : State where
  env := sampleEnv
  now := 0
  jobs := Table.empty.insert 1
    { jobType := .placeOrder, accountId := 1, createdAt := 0
      payload := { planId := some 7, legIndex := some 1 } }
  completions := fun _ => .idle
  monitors := fun _ => .idle

/-- The worker reports a failure while the monitor chain finds the trade of the order. -/
def lateReport : List Action :=
  [.nextJob none { jobType := some .placeOrder } (fun _ => false), .tick 301, .readOrders 0,
    .checkCompletion 0 1 none { status := some .failed, errorMessage := "timeout" },
    .reconcileNext 0, .saveOutcome 0]

/-- The late report replaces the outcome that the monitor chain has settled. -/
theorem completesOnce_broken : ¬ CompletesOnce sampleState lateReport := by
  intro h
  have hsettled : ((run step sampleState (lateReport.take 5)).jobs.get 1).map (·.status) =
      some .success := by decide +kernel
  have hreplaced : ((run step sampleState lateReport).jobs.get 1).map (·.status) =
      some .failed := by decide +kernel
  obtain ⟨job, hjob, hstatus⟩ := Option.map_eq_some_iff.mp hsettled
  obtain ⟨job', hjob', hstatus', -⟩ := h.keepsOutcome _ lateReport 1 (List.take_prefix 5 _)
    (List.prefix_refl _) job hjob (by rw [hstatus]; rfl)
  rw [hjob', Option.map_some, hstatus', hstatus] at hreplaced
  cases hreplaced

end JobQueue
end GuvFX
