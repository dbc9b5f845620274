/-
# What the ladder keeps

The attempts of a stage are counted on the leg, and the leg has one counter and one link, which belong to
the stage of its latest job.  As long as each job is created by a sweep that has read the leg with its
latest job, and the stages of the jobs do not fall back, the counter is the number of the job among those
of its stage that count, and the bound holds.

A sweep that works from an older copy, one that is killed before it saves the link, and an opt-in that is
withdrawn and given again all lose the count: a stage is then tried more often than the setting allows.
-/
import GuvFX.Execution.Protection

namespace GuvFX
namespace Protection

open Runs
open Consumer (JobStatus)

/-! ### What happens to jobs -/

structure Job.Later (job job' : Job) : Prop where
  stage : job'.protectionStage = job.protectionStage
  ticket : job'.ticket = job.ticket
  ended : job.isOpen = false → job' = job

lemma Job.Later.refl (job : Job) : job.Later job := ⟨rfl, rfl, fun _ => rfl⟩

lemma Job.Later.trans {job job' job'' : Job} (h : job.Later job') (h' : job'.Later job'') :
    job.Later job'' := by
  refine ⟨h'.stage.trans h.stage, h'.ticket.trans h.ticket, fun hended => ?_⟩
  obtain rfl := h.ended hended
  exact h'.ended hended

lemma later_claim (job : Job) : job.Later job.claim := by
  unfold Job.claim
  split
  · rename_i hpending
    exact ⟨rfl, rfl, fun h => by simp [Job.isOpen, hpending] at h⟩
  · exact .refl job

lemma later_finish (outcome : Outcome) (job : Job) : job.Later (job.finish outcome) := by
  unfold Job.finish
  split
  · rename_i hopen
    cases outcome <;> exact ⟨rfl, rfl, fun h => by simp [hopen] at h⟩
  · exact .refl job

lemma later_supersede (ticket : String) (job : Job) : job.Later (job.supersede ticket) := by
  unfold Job.supersede
  split
  · rename_i hpending
    exact ⟨rfl, rfl, fun h => by simp [Job.isOpen, hpending.1] at h⟩
  · exact .refl job

abbrev Later : List Job → List Job → Prop := List.Forall₂ Job.Later

lemma later_refl (jobs : List Job) : Later jobs jobs := List.forall₂_same.mpr fun job _ => .refl job

lemma later_map {f : Job → Job} (hf : ∀ job, Job.Later job (f job)) (jobs : List Job) :
    Later jobs (jobs.map f) := by
  induction jobs with
  | nil => exact .nil
  | cons job jobs ih => exact .cons (hf job) ih

lemma later_modify {f : Job → Job} (hf : ∀ job, Job.Later job (f job)) (jobs : List Job) (id : ℕ) :
    Later jobs (jobs.modify id f) := by
  induction jobs generalizing id with
  | nil => simp [Later]
  | cons job jobs ih =>
    cases id with
    | zero => exact .cons (hf job) (later_refl jobs)
    | succ id => exact .cons (.refl job) (ih id)

/-- A failure that counts. -/
def Job.isHard (stage : Stage) (job : Job) : Bool :=
  job.protectionStage = stage ∧ job.status = .failed ∧ job.retryable = false

def Job.mayCount (stage : Stage) (job : Job) : Bool :=
  job.protectionStage = stage ∧ (job.isOpen = true ∨ job.isHard stage = true)

lemma Job.not_isOpen_of_failed {job : Job} (h : job.status = .failed) : job.isOpen = false := by
  simp [Job.isOpen, h]

lemma Job.mayCount_of_isHard {job : Job} {stage : Stage} (h : job.isHard stage = true) :
    job.mayCount stage = true := by
  have hstage : job.protectionStage = stage := (of_decide_eq_true h).1
  simp [Job.mayCount, hstage, h]

lemma Job.Later.mayCount {job job' : Job} (h : job.Later job') {stage : Stage}
    (hcount : job'.mayCount stage = true) : job.mayCount stage = true := by
  cases hopen : job.isOpen with
  | true =>
    have hstage : job'.protectionStage = stage := (of_decide_eq_true hcount).1
    simp [Job.mayCount, ← h.stage, hstage, hopen]
  | false =>
    rw [h.ended hopen] at hcount
    exact hcount

variable {jobs jobs' : List Job}

lemma Later.countP_mayCount (h : Later jobs jobs') (stage : Stage) :
    jobs'.countP (Job.mayCount stage) ≤ jobs.countP (Job.mayCount stage) := by
  induction h with
  | nil => exact Nat.le_refl _
  | @cons job job' jobs jobs' hjob _ ih =>
    rw [List.countP_cons, List.countP_cons]
    by_cases hcount : job'.mayCount stage = true
    · rw [if_pos hcount, if_pos (hjob.mayCount hcount)]
      omega
    · rw [if_neg hcount]
      omega

lemma Later.countP_isHard (h : Later jobs jobs') {stage : Stage}
    (hfailed : ∀ job ∈ jobs, job.protectionStage = stage → job.status = .failed) :
    jobs'.countP (Job.isHard stage) = jobs.countP (Job.isHard stage) := by
  induction h with
  | nil => rfl
  | @cons job job' jobs jobs' hjob _ ih =>
    rw [List.countP_cons, List.countP_cons, ih fun j hj => hfailed j (List.mem_cons_of_mem _ hj)]
    by_cases hstage : job.protectionStage = stage
    · rw [hjob.ended (Job.not_isOpen_of_failed (hfailed job List.mem_cons_self hstage))]
    · have hno : ∀ j : Job, j.protectionStage ≠ stage → ¬ j.isHard stage = true :=
        fun j hj hhard => hj (of_decide_eq_true hhard).1
      rw [if_neg (hno job hstage), if_neg (hno job' (by rw [hjob.stage]; exact hstage))]

lemma Later.countP_stage (h : Later jobs jobs') (stage : Stage) :
    jobs'.countP (·.protectionStage = stage) = jobs.countP (·.protectionStage = stage) := by
  induction h with
  | nil => rfl
  | @cons job job' jobs jobs' hjob _ ih => rw [List.countP_cons, List.countP_cons, ih, hjob.stage]

lemma Later.exists_mem (h : Later jobs jobs') {job' : Job} (hmem : job' ∈ jobs') :
    ∃ job ∈ jobs, job.Later job' := by
  induction h with
  | nil => cases hmem
  | @cons job _ jobs _ hjob _ ih =>
    rcases List.mem_cons.mp hmem with rfl | hmem
    · exact ⟨job, List.mem_cons_self, hjob⟩
    · obtain ⟨j, hj, hlater⟩ := ih hmem
      exact ⟨j, List.mem_cons_of_mem _ hj, hlater⟩

lemma Later.concat {earlier' : List Job} {job' : Job} (h : Later jobs jobs')
    (heq : jobs' = earlier' ++ [job']) :
    ∃ earlier job, jobs = earlier ++ [job] ∧ Later earlier earlier' ∧ job.Later job' := by
  induction h generalizing earlier' with
  | nil => simp at heq
  | @cons j j' js js' hj hjs ih =>
    cases earlier' with
    | nil =>
      obtain ⟨rfl, rfl⟩ := List.cons.inj heq
      obtain rfl : js = [] := List.forall₂_nil_right_iff.mp hjs
      exact ⟨[], j, rfl, .nil, hj⟩
    | cons e' earlier' =>
      obtain ⟨rfl, hrest⟩ := List.cons.inj heq
      obtain ⟨earlier, job, rfl, hearlier, hjob⟩ := ih hrest
      exact ⟨j :: earlier, job, rfl, .cons hj hearlier, hjob⟩

/-! ### What a step does -/

section

variable {cfg : Config} {s s' : State} {a : Action} {p q : ℕ}

structure Decided (cfg : Config) (leg : Leg) (job : Option Job) (order : Order) : Prop where
  higher : leg.protectionStage.rank < order.stage.rank
  attempt : reconcile cfg.maxAttempts leg order.stage job = .attempt order.attempt
  reducing : isRiskReducing cfg.plan.direction (some order.sl) (baselineSl cfg leg order.trade) = true

lemma decided_of_decision {trades : ℕ → Option Trade} {allow : Bool} {leg : Leg} {job : Option Job}
    {order : Order} (h : decision cfg trades allow leg job = .enqueue order) :
    Decided cfg leg job order := by
  unfold decision at h
  split at h
  · cases h
  · split at h
    · cases h
    · dsimp only at h
      split at h
      · cases h
      · rename_i hrank
        split at h
        · cases h
        · cases h
        · rename_i n hn
          split at h
          · cases h
          · rename_i sl hsl
            split at h
            · rename_i hreducing
              cases h
              exact ⟨Nat.lt_of_not_le hrank, hn, hreducing⟩
            · cases h

/-- The broker has moved the stop-loss of the leg to that of a stage above the one it had. -/
structure Verified (leg : Leg) (job : Option Job) (stage : Stage) : Prop where
  higher : leg.protectionStage.rank < stage.rank
  success : ∃ j, job = some j ∧ j.protectionStage = stage ∧ j.status = .success ∧ j.alreadyClosed = false

lemma verified_of_decision {trades : ℕ → Option Trade} {allow : Bool} {leg : Leg} {job : Option Job}
    {stage : Stage} (h : decision cfg trades allow leg job = .apply stage) : Verified leg job stage := by
  unfold decision at h
  split at h
  · cases h
  · split at h
    · cases h
    · dsimp only at h
      split at h
      · cases h
      · rename_i hrank
        split at h
        · cases h
        · rename_i happlied
          cases h
          refine ⟨Nat.lt_of_not_le hrank, ?_⟩
          unfold reconcile at happlied
          split at happlied
          · cases happlied
          · rename_i j
            split at happlied
            · rename_i hstage
              split at happlied
              · rename_i hsuccess
                split at happlied
                · cases happlied
                · rename_i hclosed
                  exact ⟨j, rfl, hstage, hsuccess, by simpa using hclosed⟩
              · cases happlied
              · cases happlied
              · split at happlied
                · cases happlied
                · split at happlied <;> cases happlied
            · cases happlied
        · split at h
          · cases h
          · split at h <;> cases h

/-- The job that a sweep holds is what the leg's link led to. -/
def Snapshot (jobs : List Job) : Option ℕ → Option Job → Prop
  | none, none => True
  | some id, some job => ∃ job', jobs[id]? = some job' ∧ job.Later job'
  | _, _ => False

def Place.Knows (cfg : Config) (jobs : List Job) : Place → Prop
  | .idle | .started .. => True
  | .linking _ id _ => id < jobs.length
  | .loaded _ _ leg job => Snapshot jobs leg.breakevenJob job
  | .applying leg stage => ∃ job, Snapshot jobs leg.breakevenJob job ∧ Verified leg job stage
  | .superseding _ leg order | .checking _ leg order | .creating leg order =>
    ∃ job, Snapshot jobs leg.breakevenJob job ∧ Decided cfg leg job order

lemma Later.getElem? (h : Later jobs jobs') {id : ℕ} {job : Job} (hjob : jobs[id]? = some job) :
    ∃ job', jobs'[id]? = some job' ∧ job.Later job' := by
  induction h generalizing id with
  | nil => simp at hjob
  | @cons j j' _ _ hj _ ih =>
    cases id with
    | zero =>
      obtain rfl : j = job := by simpa using hjob
      exact ⟨j', rfl, hj⟩
    | succ id => exact ih hjob

/-- The jobs of a later moment, with or without a new one. -/
structure Grown (jobs jobs' : List Job) : Prop where
  getElem? : ∀ {id : ℕ} {job : Job}, jobs[id]? = some job → ∃ job', jobs'[id]? = some job' ∧ job.Later job'

lemma Later.grown (h : Later jobs jobs') : Grown jobs jobs' :=
  ⟨fun hjob => h.getElem? hjob⟩

lemma grown_append (jobs : List Job) (job : Job) : Grown jobs (jobs ++ [job]) := by
  refine ⟨fun {id j} hjob => ⟨j, ?_, .refl j⟩⟩
  rw [List.getElem?_append_left (List.getElem?_eq_some_iff.mp hjob).1]
  exact hjob

lemma Snapshot.grown {id : Option ℕ} {job : Option Job} (h : Snapshot jobs id job)
    (hgrown : Grown jobs jobs') : Snapshot jobs' id job := by
  match id, job, h with
  | none, none, _ => trivial
  | some id, some job, h =>
    obtain ⟨job', hjob', hlater⟩ := h
    obtain ⟨job'', hjob'', hlater'⟩ := hgrown.getElem? hjob'
    exact ⟨job'', hjob'', hlater.trans hlater'⟩

lemma Grown.lt (h : Grown jobs jobs') {id : ℕ} (hid : id < jobs.length) : id < jobs'.length := by
  obtain ⟨job', hjob', -⟩ := h.getElem? (List.getElem?_eq_getElem hid)
  exact (List.getElem?_eq_some_iff.mp hjob').1

lemma Place.Knows.grown {place : Place} (h : place.Knows cfg jobs) (hgrown : Grown jobs jobs') :
    place.Knows cfg jobs' := by
  cases place with
  | idle | started => trivial
  | linking => exact hgrown.lt h
  | loaded => exact Snapshot.grown h hgrown
  | applying | superseding | checking | creating =>
    obtain ⟨job, hjob, hrest⟩ := h
    exact ⟨job, hjob.grown hgrown, hrest⟩

def Leg.linked (leg : Leg) (id attempt : ℕ) : Leg :=
  { leg with breakevenJob := some id, breakevenAttempts := attempt }

def Order.job (cfg : Config) (order : Order) : Job :=
  { ticket := order.trade.ticket
    protectionStage := order.stage
    sl := order.sl
    tp := (cfg.plan.legs cfg.legIndex).bind (·.takeProfit) }

/-- What a step may do to the leg and its jobs. -/
inductive Effect (cfg : Config) (s : State) (a : Action) (s' : State) : Prop
  | quiet (hlater : Later s.jobs s'.jobs) (hleg : s'.leg = s.leg)
      (hlinking : ∀ q leg id n, s'.sweeps q = .linking leg id n → s.sweeps q = .linking leg id n)
  | applied (p : ℕ) (now : Time) (leg : Leg) (stage : Stage) (ha : a = .apply p now)
      (hplace : s.sweeps p = .applying leg stage) (hjobs : s'.jobs = s.jobs)
      (hleg : s'.leg = { s.leg with
        protectionStage := stage
        breakevenAppliedAt := leg.breakevenAppliedAt.or (some now) })
      (hsweeps : s'.sweeps = Function.update s.sweeps p .idle)
  | created (p : ℕ) (leg : Leg) (order : Order) (ha : a = .create p)
      (hplace : s.sweeps p = .creating leg order) (hjobs : s'.jobs = s.jobs ++ [order.job cfg])
      (hleg : s'.leg = s.leg)
      (hsweeps : s'.sweeps = Function.update s.sweeps p (.linking leg s.jobs.length order.attempt))
  | linked (p : ℕ) (leg : Leg) (id n : ℕ) (ha : a = .link p) (hplace : s.sweeps p = .linking leg id n)
      (hjobs : s'.jobs = s.jobs) (hleg : s'.leg = s.leg.linked id n)
      (hsweeps : s'.sweeps = Function.update s.sweeps p .idle)

lemma Effect.of_goto {place : Place} (hlater : Later s.jobs s'.jobs) (hleg : s'.leg = s.leg)
    (hsweeps : s'.sweeps = s.sweeps) (hplace : ∀ leg id n, place ≠ .linking leg id n) :
    Effect cfg s a (s'.goto p place) := by
  refine .quiet hlater hleg fun q leg id n h => ?_
  simp only [State.goto, hsweeps, Function.update_apply] at h
  split at h
  · exact absurd h (hplace leg id n)
  · exact h

lemma step_effect (cfg : Config) (s : State) (a : Action) : Effect cfg s a (step cfg s a) := by
  have hstutter : Effect cfg s a s := .quiet (later_refl _) rfl fun _ _ _ _ h => h
  cases a with
  | env e => exact .quiet (later_refl _) rfl fun _ _ _ _ h => h
  | claim id => exact .quiet (later_modify later_claim _ _) rfl fun _ _ _ _ h => h
  | finish id outcome =>
    exact .quiet (later_modify (later_finish outcome) _ _) rfl fun _ _ _ _ h => h
  | start p =>
    simp only [step]
    split
    · split
      · exact .of_goto (later_refl _) rfl rfl nofun
      · exact hstutter
    · exact hstutter
  | load p =>
    simp only [step]
    split
    · exact .of_goto (later_refl _) rfl rfl nofun
    · exact hstutter
  | decide p =>
    simp only [step]
    split
    · rename_i allow username leg job hplace
      cases decision cfg s.env.trades allow leg job with
      | skip => exact .of_goto (later_refl _) rfl rfl nofun
      | apply stage => exact .of_goto (later_refl _) rfl rfl nofun
      | enqueue order =>
        simp only [State.follow]
        split <;> exact .of_goto (later_refl _) rfl rfl nofun
    · exact hstutter
  | apply p now =>
    simp only [step]
    split
    · rename_i leg stage hplace
      exact .applied p now leg stage rfl hplace rfl rfl rfl
    · exact hstutter
  | supersede p =>
    simp only [step]
    split
    · exact .of_goto (later_map (later_supersede _) _) rfl rfl nofun
    · exact hstutter
  | check p =>
    simp only [step]
    split
    · split <;> exact .of_goto (later_refl _) rfl rfl nofun
    · exact hstutter
  | create p =>
    simp only [step]
    split
    · rename_i leg order hplace
      exact .created p leg order rfl hplace rfl rfl rfl
    · exact hstutter
  | link p =>
    simp only [step]
    split
    · rename_i leg id n hplace
      exact .linked p leg id n rfl hplace rfl rfl rfl
    · exact hstutter
  | stop p => exact .of_goto (later_refl _) rfl rfl nofun

lemma Effect.grown (h : Effect cfg s a s') : Grown s.jobs s'.jobs := by
  cases h with
  | quiet hlater => exact hlater.grown
  | applied _ _ _ _ _ _ hjobs | linked _ _ _ _ _ _ hjobs =>
    rw [hjobs]
    exact (later_refl _).grown
  | created p leg order _ _ hjobs =>
    rw [hjobs]
    exact grown_append _ _

def State.Linked (s : State) : Prop := ∀ id, s.leg.breakevenJob = some id → id < s.jobs.length

lemma linked_step (h : ∀ q, (s.sweeps q).Knows cfg s.jobs) (hlinked : s.Linked) :
    (step cfg s a).Linked := by
  have hgrown := (step_effect cfg s a).grown
  intro id hid
  cases step_effect cfg s a with
  | quiet _ hleg => exact hgrown.lt (hlinked id (by rw [← hleg]; exact hid))
  | applied p now leg stage _ _ _ hleg => exact hgrown.lt (hlinked id (by rw [hleg] at hid; exact hid))
  | created p leg order _ _ _ hleg => exact hgrown.lt (hlinked id (by rw [← hleg]; exact hid))
  | linked p leg id' n _ hplace _ hleg =>
    have hknown := h p
    rw [hplace] at hknown
    obtain rfl : id' = id := by simpa [hleg, Leg.linked] using hid
    exact hgrown.lt hknown

lemma knows_step (h : ∀ q, (s.sweeps q).Knows cfg s.jobs) (hlinked : s.Linked) (q : ℕ) :
    ((step cfg s a).sweeps q).Knows cfg (step cfg s a).jobs := by
  have hgrown := (step_effect cfg s a).grown
  have hold : (s.sweeps q).Knows cfg (step cfg s a).jobs := (h q).grown hgrown
  have hmoved : ∀ {s' : State} {p place}, s'.sweeps = s.sweeps → (s.sweeps q).Knows cfg s'.jobs →
      (q = p → place.Knows cfg s'.jobs) → ((s'.goto p place).sweeps q).Knows cfg s'.jobs := by
    intro s' p place hsweeps hold hplace
    simp only [State.goto, hsweeps, Function.update_apply]
    split
    · rename_i hq
      exact hplace hq
    · exact hold
  revert hold
  cases a with
  | env e | claim i | finish i outcome => exact id
  | start p =>
    simp only [step]
    split
    · split
      · exact fun hold => hmoved rfl hold fun _ => trivial
      · exact id
    · exact id
  | load p =>
    simp only [step]
    split
    · refine fun hold => hmoved rfl hold fun _ => ?_
      show Snapshot s.jobs s.leg.breakevenJob (s.leg.breakevenJob.bind (s.jobs[·]?))
      cases hid : s.leg.breakevenJob with
      | none => trivial
      | some id =>
        have hjob := List.getElem?_eq_getElem (hlinked id hid)
        rw [Option.bind_some, hjob]
        exact ⟨_, hjob, .refl _⟩
    · exact id
  | decide p =>
    simp only [step]
    split
    · rename_i allow username leg job hplace
      have hjob := h p
      rw [hplace] at hjob
      cases hdecision : decision cfg s.env.trades allow leg job with
      | skip => exact fun hold => hmoved rfl hold fun _ => trivial
      | apply stage =>
        exact fun hold => hmoved rfl hold fun _ => ⟨job, hjob, verified_of_decision hdecision⟩
      | enqueue order =>
        have hdecided : ∃ job, Snapshot s.jobs leg.breakevenJob job ∧ Decided cfg leg job order :=
          ⟨job, hjob, decided_of_decision hdecision⟩
        simp only [State.follow]
        split <;> exact fun hold => hmoved rfl hold fun _ => hdecided
    · exact id
  | apply p now =>
    simp only [step]
    split
    · exact fun hold => hmoved rfl hold fun _ => trivial
    · exact id
  | supersede p =>
    simp only [step]
    split
    · rename_i username leg order hplace
      have hknown := (h p).grown (later_map (later_supersede order.trade.ticket) s.jobs).grown
      rw [hplace] at hknown
      exact fun hold => hmoved rfl hold fun _ => hknown
    · exact id
  | check p =>
    simp only [step]
    split
    · rename_i username leg order hplace
      have hknown := h p
      rw [hplace] at hknown
      split
      · exact fun hold => hmoved rfl hold fun _ => trivial
      · exact fun hold => hmoved rfl hold fun _ => hknown
    · exact id
  | create p =>
    simp only [step]
    split
    · refine fun hold => hmoved rfl hold fun _ => ?_
      show s.jobs.length < (s.jobs ++ [_]).length
      simp
    · exact id
  | link p =>
    simp only [step]
    split
    · exact fun hold => hmoved rfl hold fun _ => trivial
    · exact id
  | stop p => exact fun hold => hmoved rfl hold fun _ => trivial

end

/-! ### The count of the attempts -/

def latest (jobs : List Job) : Option ℕ :=
  match jobs.length with
  | 0 => none
  | n + 1 => some n

structure Counted (maxAttempts : ℤ) (earlier : List Job) (job : Job) (n : ℕ) : Prop where
  number : n = 1 + earlier.countP (Job.isHard job.protectionStage)
  le : (n : ℤ) ≤ maxAttempts
  failed : ∀ j ∈ earlier, j.protectionStage = job.protectionStage → j.status = .failed
  rank : ∀ j ∈ earlier, j.protectionStage.rank ≤ job.protectionStage.rank

def Numbered (maxAttempts : ℤ) (jobs : List Job) (n : ℕ) : Prop :=
  ∀ earlier job, jobs = earlier ++ [job] → Counted maxAttempts earlier job n

section

variable {cfg : Config} {s s' : State} {a : Action} {p q n id : ℕ} {maxAttempts : ℤ}

lemma latest_eq (h : Later jobs jobs') : latest jobs' = latest jobs := by
  rw [latest, latest, h.length_eq]

lemma latest_append (jobs : List Job) (job : Job) : latest (jobs ++ [job]) = some jobs.length := by
  simp [latest]

lemma Numbered.later (h : Numbered maxAttempts jobs n) (hlater : Later jobs jobs') :
    Numbered maxAttempts jobs' n := by
  intro earlier' job' heq
  obtain ⟨earlier, job, rfl, hearlier, hjob⟩ := hlater.concat heq
  have hcounted := h earlier job rfl
  have hfailed : ∀ j ∈ earlier, j.protectionStage = job'.protectionStage → j.status = .failed := by
    intro j hj hstage
    exact hcounted.failed j hj (hstage.trans hjob.stage)
  refine ⟨?_, hcounted.le, fun j' hj' hstage => ?_, fun j' hj' => ?_⟩
  · rw [hearlier.countP_isHard hfailed, hjob.stage]
    exact hcounted.number
  · obtain ⟨j, hj, hlater⟩ := hearlier.exists_mem hj'
    have hj' := hfailed j hj (hlater.stage.symm.trans hstage)
    rw [hlater.ended (Job.not_isOpen_of_failed hj')]
    exact hj'
  · obtain ⟨j, hj, hlater⟩ := hearlier.exists_mem hj'
    rw [hlater.stage, hjob.stage]
    exact hcounted.rank j hj

def NotBehind (jobs : List Job) (stage : Stage) : Prop :=
  (jobs.getLast?.all fun job => job.protectionStage.rank ≤ stage.rank) = true

/-- A sweep that is about to create a job has read the leg as it is, with its latest job. -/
def Place.InTurn (s : State) : Place → Prop
  | .creating leg order =>
    s.leg.breakevenJob = latest s.jobs ∧ leg.breakevenJob = s.leg.breakevenJob ∧
      leg.breakevenAttempts = s.leg.breakevenAttempts ∧ NotBehind s.jobs order.stage
  | _ => True

/-- A job is created by a sweep that has read the leg as it is, with its latest job, and its stage is not
behind that of this job. -/
def InTurn (s : State) : Action → Prop
  | .create p => (s.sweeps p).InTurn s
  | _ => True

instance (jobs : List Job) (stage : Stage) : Decidable (NotBehind jobs stage) :=
  inferInstanceAs (Decidable (_ = true))

instance (s : State) (place : Place) : Decidable (place.InTurn s) := by
  cases place with
  | creating leg order => exact inferInstanceAs (Decidable (_ ∧ _ ∧ _ ∧ _))
  | _ => exact .isTrue trivial

instance (s : State) (a : Action) : Decidable (InTurn s a) := by
  cases a with
  | create p => exact inferInstanceAs (Decidable (Place.InTurn s _))
  | _ => exact .isTrue trivial

inductive NextJob (cfg : Config) (s : State) (leg : Leg) (order : Order) : Prop
  | first (hjobs : s.jobs = []) (hattempt : order.attempt = 1)
  /-- The latest job was for a stage below. -/
  | advance (earlier : List Job) (job : Job) (hjobs : s.jobs = earlier ++ [job])
      (hstage : job.protectionStage.rank < order.stage.rank) (hattempt : order.attempt = 1)
  | again (earlier : List Job) (job : Job) (hjobs : s.jobs = earlier ++ [job])
      (hstage : job.protectionStage = order.stage) (hfailed : job.status = .failed)
      (hattempt : order.attempt =
        s.leg.breakevenAttempts + [job].countP (Job.isHard order.stage))
      (hmax : job.isHard order.stage = true → (s.leg.breakevenAttempts : ℤ) < cfg.maxAttempts)

lemma Stage.rank_injective : Function.Injective Stage.rank := by
  intro st st' h
  cases st <;> cases st' <;> first | rfl | cases h

lemma nextJob {leg : Leg} {order : Order} {job : Option Job}
    (hplace : s.sweeps p = .creating leg order) (hturn : InTurn s (.create p))
    (hsnapshot : Snapshot s.jobs leg.breakevenJob job) (hdecided : Decided cfg leg job order) :
    NextJob cfg s leg order := by
  rw [InTurn, hplace] at hturn
  obtain ⟨hlatest, hlink, hattempts, hrank⟩ := hturn
  have hattempt := hdecided.attempt
  rcases List.eq_nil_or_concat s.jobs with hjobs | ⟨earlier, J, hjobs⟩
  · refine .first hjobs ?_
    rw [hlink, hlatest, hjobs] at hsnapshot
    cases job with
    | none => exact (Reconciled.attempt.inj hattempt).symm
    | some j => exact hsnapshot.elim
  · rw [List.concat_eq_append] at hjobs
    rw [NotBehind, hjobs, List.getLast?_concat] at hrank
    have hJrank : J.protectionStage.rank ≤ order.stage.rank := by simpa using hrank
    rw [hlink, hlatest, hjobs, latest_append] at hsnapshot
    cases job with
    | none => exact hsnapshot.elim
    | some j =>
      obtain ⟨J', hJ', hlater⟩ := hsnapshot
      obtain rfl : J = J' := by simpa using hJ'
      by_cases hstage : j.protectionStage = order.stage
      · have hJ : J.protectionStage = order.stage := hlater.stage.trans hstage
        cases hstatus : j.status with
        | pending | running => simp [reconcile, hstage, hstatus] at hattempt
        | success =>
          simp only [reconcile, hstage, if_true, hstatus] at hattempt
          split at hattempt <;> cases hattempt
        | failed =>
          obtain rfl := hlater.ended (Job.not_isOpen_of_failed hstatus)
          cases hretryable : J.retryable with
          | true =>
            have hnot : J.isHard order.stage = false := by simp [Job.isHard, hretryable]
            refine .again earlier J hjobs hJ hstatus ?_ (by simp [hnot])
            simp only [reconcile, hstage, if_true, hstatus, hretryable] at hattempt
            rw [← Reconciled.attempt.inj hattempt, hattempts]
            simp [hnot]
          | false =>
            have hhard : J.isHard order.stage = true := by simp [Job.isHard, hretryable, hJ, hstatus]
            simp only [reconcile, hstage, if_true, hstatus, hretryable, Bool.false_eq_true,
              if_false] at hattempt
            split at hattempt
            · cases hattempt
            · rename_i hmax
              refine .again earlier J hjobs hJ hstatus ?_ fun _ => ?_
              · rw [← Reconciled.attempt.inj hattempt, hattempts]
                simp [hhard]
              · rw [← hattempts]
                exact not_le.mp hmax
      · have hne : J.protectionStage ≠ order.stage := by rwa [hlater.stage]
        refine .advance earlier J hjobs ?_ ?_
        · exact lt_of_le_of_ne hJrank fun h => hne (Stage.rank_injective h)
        · rw [reconcile, if_neg hstage] at hattempt
          exact (Reconciled.attempt.inj hattempt).symm

lemma NextJob.numbered {leg : Leg} {order : Order} (h : NextJob cfg s leg order)
    (hmax : 1 ≤ cfg.maxAttempts) (hnumbered : Numbered cfg.maxAttempts s.jobs s.leg.breakevenAttempts) :
    Counted cfg.maxAttempts s.jobs (order.job cfg) order.attempt := by
  cases h with
  | first hjobs hattempt =>
    rw [hjobs, hattempt]
    exact ⟨rfl, hmax, fun _ hj => (nomatch hj), fun _ hj => (nomatch hj)⟩
  | advance earlier job hjobs hstage hattempt =>
    have hcounted := hnumbered earlier job hjobs
    have hbelow : ∀ j ∈ s.jobs, j.protectionStage.rank < order.stage.rank := by
      intro j hj
      rw [hjobs, List.mem_append, List.mem_singleton] at hj
      rcases hj with hj | rfl
      · exact lt_of_le_of_lt (hcounted.rank j hj) hstage
      · exact hstage
    have hnone : ∀ j ∈ s.jobs, j.protectionStage ≠ order.stage := fun j hj h =>
      absurd (hbelow j hj) (by rw [h]; exact lt_irrefl _)
    refine ⟨?_, ?_, fun j hj h => absurd h (hnone j hj), fun j hj => (hbelow j hj).le⟩
    · have hzero : s.jobs.countP (Job.isHard order.stage) = 0 :=
        List.countP_eq_zero.mpr fun j hj hhard => hnone j hj (of_decide_eq_true hhard).1
      rw [hattempt]
      exact congrArg (1 + ·) hzero.symm
    · rw [hattempt]
      exact_mod_cast hmax
  | again earlier job hjobs hstage hfailed hattempt hlt =>
    have hcounted := hnumbered earlier job hjobs
    have hnumber := hcounted.number
    rw [hstage] at hnumber
    refine ⟨?_, ?_, ?_, ?_⟩
    · show order.attempt = 1 + s.jobs.countP (Job.isHard order.stage)
      rw [hjobs, List.countP_append, hattempt, hnumber]
      omega
    · rw [hattempt]
      have hle := hcounted.le
      cases hhard : job.isHard order.stage with
      | true =>
        have hlt := hlt hhard
        simp only [List.countP_singleton, hhard, if_true]
        omega
      | false =>
        simp only [List.countP_singleton, hhard]
        simpa using hle
    · intro j hj hj'
      rw [hjobs, List.mem_append, List.mem_singleton] at hj
      rcases hj with hj | rfl
      · exact hcounted.failed j hj (hj'.trans hstage.symm)
      · exact hfailed
    · intro j hj
      rw [hjobs, List.mem_append, List.mem_singleton] at hj
      show j.protectionStage.rank ≤ order.stage.rank
      rcases hj with hj | rfl
      · rw [← hstage]
        exact hcounted.rank j hj
      · exact le_of_eq (congrArg Stage.rank hstage)

/-- What the runs keep whose jobs are created in their turn. -/
structure Inv (cfg : Config) (s : State) : Prop where
  knows : ∀ p, (s.sweeps p).Knows cfg s.jobs
  linked : s.Linked
  count : ∀ stage, (s.jobs.countP (Job.mayCount stage) : ℤ) ≤ cfg.maxAttempts
  numbered : s.leg.breakevenJob = latest s.jobs →
    Numbered cfg.maxAttempts s.jobs s.leg.breakevenAttempts
  /-- The job that is about to be linked is the latest one. -/
  linking : ∀ p leg id n, s.sweeps p = .linking leg id n →
    some id = latest s.jobs ∧ s.leg.breakevenJob ≠ latest s.jobs ∧ Numbered cfg.maxAttempts s.jobs n
  one : ∀ p q leg id n leg' id' n', s.sweeps p = .linking leg id n → s.sweeps q = .linking leg' id' n' →
    p = q

lemma inv_init (hmax : 1 ≤ cfg.maxAttempts) (env : Env) : Inv cfg (init env) where
  knows _ := trivial
  linked _ h := nomatch h
  count _ := by
    show ((0 : ℕ) : ℤ) ≤ _
    omega
  numbered _ earlier job h := by simp [init] at h
  linking _ _ _ _ h := nomatch h
  one _ _ _ _ _ _ _ _ h := nomatch h

lemma Counted.count {order : Order}
    (hcounted : Counted cfg.maxAttempts s.jobs (order.job cfg) order.attempt)
    (hcount : ∀ stage, (s.jobs.countP (Job.mayCount stage) : ℤ) ≤ cfg.maxAttempts) (stage : Stage) :
    ((s.jobs ++ [order.job cfg]).countP (Job.mayCount stage) : ℤ) ≤ cfg.maxAttempts := by
  by_cases hstage : order.stage = stage
  · subst hstage
    -- the earlier jobs of the stage have failed, so that those that may count have failed hard
    have hsame : s.jobs.countP (Job.mayCount order.stage) = s.jobs.countP (Job.isHard order.stage) := by
      refine List.countP_congr fun j hj => ⟨fun h => ?_, Job.mayCount_of_isHard⟩
      obtain ⟨hj', hcounts⟩ := of_decide_eq_true h
      have hclosed := Job.not_isOpen_of_failed (hcounted.failed j hj hj')
      exact hcounts.resolve_left (by simp [hclosed])
    have hnumber : order.attempt = 1 + s.jobs.countP (Job.isHard order.stage) := hcounted.number
    have hle := hcounted.le
    have hone : [order.job cfg].countP (Job.mayCount order.stage) ≤ 1 := List.countP_le_length
    rw [List.countP_append, hsame]
    omega
  · have hzero : [order.job cfg].countP (Job.mayCount stage) = 0 := by
      simp [Job.mayCount, Order.job, hstage]
    rw [List.countP_append, hzero]
    exact hcount stage

lemma inv_step (hmax : 1 ≤ cfg.maxAttempts) (s : State) (a : Action) (h : Inv cfg s)
    (hturn : InTurn s a) : Inv cfg (step cfg s a) := by
  have hknows := knows_step (a := a) h.knows h.linked
  have hlinked := linked_step (a := a) h.knows h.linked
  have heff := step_effect cfg s a
  revert hknows hlinked heff
  generalize step cfg s a = s'
  intro hknows hlinked heff
  cases heff with
  | quiet hlater hleg hlinking =>
    have hlatest := latest_eq hlater
    refine ⟨hknows, hlinked, fun stage => ?_, fun hl => ?_, fun p leg id n hp => ?_, ?_⟩
    · have hle := hlater.countP_mayCount stage
      have hcount := h.count stage
      omega
    · rw [hleg, hlatest] at hl
      rw [hleg]
      exact (h.numbered hl).later hlater
    · obtain ⟨hid, hne, hnumbered⟩ := h.linking p leg id n (hlinking p leg id n hp)
      rw [hleg, hlatest]
      exact ⟨hid, hne, hnumbered.later hlater⟩
    · intro p q leg id n leg' id' n' hp hq
      exact h.one p q leg id n leg' id' n' (hlinking p leg id n hp) (hlinking q leg' id' n' hq)
  | applied p now leg stage ha hplace hjobs hleg hsweeps =>
    have hold : ∀ q leg id n, s'.sweeps q = .linking leg id n → s.sweeps q = .linking leg id n := by
      intro q leg id n hq
      rw [hsweeps, Function.update_apply] at hq
      split at hq
      · cases hq
      · exact hq
    refine ⟨hknows, hlinked, by rw [hjobs]; exact h.count, fun hl => ?_, fun q leg id n hq => ?_, ?_⟩
    · rw [hleg, hjobs] at hl
      rw [hleg, hjobs]
      exact h.numbered hl
    · rw [hleg, hjobs]
      exact h.linking q leg id n (hold q leg id n hq)
    · intro q q' leg id n leg' id' n' hq hq'
      exact h.one q q' leg id n leg' id' n' (hold q leg id n hq) (hold q' leg' id' n' hq')
  | created p leg order ha hplace hjobs hleg hsweeps =>
    subst ha
    have hplaced := h.knows p
    rw [hplace] at hplaced
    obtain ⟨job, hsnapshot, hdecided⟩ := hplaced
    have hlatest : s.leg.breakevenJob = latest s.jobs := by
      rw [InTurn, hplace] at hturn
      exact hturn.1
    have hcounted := (nextJob hplace hturn hsnapshot hdecided).numbered hmax (h.numbered hlatest)
    have hnone : ∀ q leg id n, s.sweeps q ≠ .linking leg id n := fun q leg id n hq =>
      (h.linking q leg id n hq).2.1 hlatest
    have honly : ∀ q leg' id n, s'.sweeps q = .linking leg' id n →
        q = p ∧ id = s.jobs.length ∧ n = order.attempt := by
      intro q leg' id n hq
      rw [hsweeps, Function.update_apply] at hq
      split at hq
      · rename_i hqp
        cases hq
        exact ⟨hqp, rfl, rfl⟩
      · exact absurd hq (hnone q leg' id n)
    have hfresh : s.leg.breakevenJob ≠ some s.jobs.length := fun hl =>
      absurd (h.linked _ hl) (lt_irrefl _)
    refine ⟨hknows, hlinked, fun stage => ?_, fun hl => ?_, fun q leg' id n hq => ?_, ?_⟩
    · rw [hjobs]
      exact hcounted.count h.count stage
    · rw [hleg, hjobs, latest_append] at hl
      exact absurd hl hfresh
    · obtain ⟨-, rfl, rfl⟩ := honly q leg' id n hq
      rw [hleg, hjobs, latest_append]
      refine ⟨rfl, hfresh, fun earlier job heq => ?_⟩
      obtain ⟨rfl, hjob⟩ := List.append_inj' heq rfl
      obtain rfl : order.job cfg = job := by simpa using hjob
      exact hcounted
    · intro q q' leg id n leg' id' n' hq hq'
      exact (honly q leg id n hq).1.trans (honly q' leg' id' n' hq').1.symm
  | linked p leg id n ha hplace hjobs hleg hsweeps =>
    obtain ⟨hid, hne, hnumbered⟩ := h.linking p leg id n hplace
    have hnone : ∀ q leg' id' n', s'.sweeps q ≠ .linking leg' id' n' := by
      intro q leg' id' n' hq
      rw [hsweeps, Function.update_apply] at hq
      split at hq
      · cases hq
      · rename_i hqp
        exact hqp (h.one q p leg' id' n' leg id n hq hplace)
    refine ⟨hknows, hlinked, by rw [hjobs]; exact h.count, fun hl => ?_,
      fun q leg' id' n' hq => absurd hq (hnone q leg' id' n'), fun q q' leg' id' n' _ _ _ hq _ =>
        absurd hq (hnone q leg' id' n')⟩
    rw [hleg, hjobs]
    exact hnumbered

end

/-! ### The bound on the attempts -/

/-- The latest job of the leg has failed hard, and no attempt is left. -/
structure Exhausted (cfg : Config) (s : State) (stage : Stage) : Prop where
  linked : s.leg.breakevenJob = latest s.jobs
  attempts : cfg.maxAttempts ≤ s.leg.breakevenAttempts
  failed : ∃ earlier job, s.jobs = earlier ++ [job] ∧ job.isHard stage = true

def enqueued (s : State) (stage : Stage) : ℕ := s.jobs.countP (·.protectionStage = stage)

/-- The trades ask for a stage that the leg does not have, and the stop-loss reduces the risk. -/
structure Wants (cfg : Config) (s : State) (trade : Trade) (stage : Stage) (sl : ℚ) : Prop where
  enabled : s.env.breakevenEnabled = true
  promoted : s.env.promoted = true
  username : s.env.windowsUsername ≠ ""
  current : s.env.trades cfg.legIndex = some trade
  isOpen : trade.closeTime = none
  ticket : trade.ticket ≠ ""
  desired : desiredStage cfg s.env.trades s.env.incrementalProtection = (stage, some sl)
  higher : s.leg.protectionStage.rank < stage.rank
  reducing : isRiskReducing cfg.plan.direction (some sl) (baselineSl cfg s.leg trade) = true

/-- The steps of a sweep that nothing comes between. -/
def turn (p : ℕ) : List Action :=
  [.start p, .load p, .decide p, .supersede p, .check p, .create p, .link p]

structure Enqueued (s : State) (stage : Stage) (sl : ℚ) : Prop where
  job : ∃ earlier job, s.jobs = earlier ++ [job] ∧ job.protectionStage = stage ∧ job.sl = sl ∧
    job.status = .pending
  linked : s.leg.breakevenJob = latest s.jobs
  attempt : s.leg.breakevenAttempts = 1

structure Bounded (cfg : Config) (env : Env) (as : List Action) : Prop where
  bound : ∀ pre, pre <+: as → ∀ stage,
    ((run (step cfg) (init env) pre).jobs.countP (Job.isHard stage) : ℤ) ≤ cfg.maxAttempts
  /-- The counter is the number of the attempt among the hard ones, whatever was deferred. -/
  soft : ∀ pre, pre <+: as → ∀ s, s = run (step cfg) (init env) pre →
    s.leg.breakevenJob = latest s.jobs → ∀ earlier job, s.jobs = earlier ++ [job] →
    s.leg.breakevenAttempts = 1 + earlier.countP (Job.isHard job.protectionStage)
  exhausted : ∀ pre mid post, as = pre ++ (mid ++ post) → ∀ stage,
    Exhausted cfg (run (step cfg) (init env) pre) stage →
    enqueued (run (step cfg) (init env) (pre ++ mid)) stage =
      enqueued (run (step cfg) (init env) pre) stage
  next : ∀ pre, pre <+: as → ∀ stage, Exhausted cfg (run (step cfg) (init env) pre) stage →
    ∀ trade stage' sl, stage.rank < stage'.rank →
    Wants cfg (run (step cfg) (init env) pre) trade stage' sl →
    ∀ p, (run (step cfg) (init env) pre).sweeps p = .idle →
    Enqueued (run (step cfg) (init env) (pre ++ turn p)) stage' sl

section

variable {cfg : Config} {s : State} {a : Action} {stage : Stage}

/-- The stage is exhausted, or the jobs have moved on to a later one. -/
def Past (cfg : Config) (stage : Stage) (s : State) : Prop :=
  Exhausted cfg s stage ∨ ∃ earlier job, s.jobs = earlier ++ [job] ∧ stage.rank < job.protectionStage.rank

/-- What is exhausted stays so, and gets no job. -/
lemma past_step (h : Inv cfg s) (hturn : InTurn s a) (hpast : Past cfg stage s) :
    Past cfg stage (step cfg s a) ∧ enqueued (step cfg s a) stage = enqueued s stage := by
  have heff := step_effect cfg s a
  revert heff
  generalize step cfg s a = s'
  intro heff
  cases heff with
  | quiet hlater hleg hlinking =>
    refine ⟨?_, hlater.countP_stage stage⟩
    have hconcat : ∀ earlier job, s.jobs = earlier ++ [job] →
        ∃ earlier' job', s'.jobs = earlier' ++ [job'] ∧ job.Later job' := by
      intro earlier job heq
      have hne : s'.jobs ≠ [] := by
        intro hnil
        have hlength := hlater.length_eq
        simp [hnil, heq] at hlength
      obtain ⟨earlier', job', heq'⟩ := (List.eq_nil_or_concat s'.jobs).resolve_left hne
      rw [List.concat_eq_append] at heq'
      obtain ⟨e, j, heq'', -, hj⟩ := hlater.concat heq'
      obtain ⟨rfl, hjob⟩ := List.append_inj' (heq.symm.trans heq'') rfl
      obtain rfl : job = j := by simpa using hjob
      exact ⟨earlier', job', heq', hj⟩
    rcases hpast with hex | ⟨earlier, job, heq, hrank⟩
    · obtain ⟨earlier, job, heq, hhard⟩ := hex.failed
      obtain ⟨earlier', job', heq', hj⟩ := hconcat earlier job heq
      have hfailed : job.status = .failed := (of_decide_eq_true hhard).2.1
      rw [hj.ended (Job.not_isOpen_of_failed hfailed)] at heq'
      exact .inl ⟨by rw [hleg, latest_eq hlater]; exact hex.linked, by rw [hleg]; exact hex.attempts,
        earlier', job, heq', hhard⟩
    · obtain ⟨earlier', job', heq', hj⟩ := hconcat earlier job heq
      exact .inr ⟨earlier', job', heq', by rw [hj.stage]; exact hrank⟩
  | applied p now leg stage' ha hplace hjobs hleg hsweeps =>
    refine ⟨?_, by rw [enqueued, enqueued, hjobs]⟩
    rcases hpast with hex | hrank
    · exact .inl ⟨by rw [hleg, hjobs]; exact hex.linked, by rw [hleg]; exact hex.attempts,
        by rw [hjobs]; exact hex.failed⟩
    · exact .inr (by rw [hjobs]; exact hrank)
  | created p leg order ha hplace hjobs hleg hsweeps =>
    subst ha
    have hplaced := h.knows p
    rw [hplace] at hplaced
    obtain ⟨job, hsnapshot, hdecided⟩ := hplaced
    have hrank : stage.rank < order.stage.rank := by
      cases nextJob hplace hturn hsnapshot hdecided with
      | first hnil =>
        rcases hpast with hex | ⟨earlier, J, heq, -⟩
        · obtain ⟨earlier, J, heq, -⟩ := hex.failed
          simp [hnil] at heq
        · simp [hnil] at heq
      | advance earlier J heq hlt =>
        rcases hpast with hex | ⟨earlier', J', heq', hlt'⟩
        · obtain ⟨earlier', J', heq', hhard⟩ := hex.failed
          obtain rfl : J' = J := by simpa [heq] using congrArg List.getLast? (heq'.symm.trans heq)
          have hstage : J'.protectionStage = stage := (of_decide_eq_true hhard).1
          rwa [← hstage]
        · obtain rfl : J' = J := by simpa [heq] using congrArg List.getLast? (heq'.symm.trans heq)
          exact hlt'.trans hlt
      | again earlier J heq hstage hfailed hattempt hmax =>
        rcases hpast with hex | ⟨earlier', J', heq', hlt'⟩
        · obtain ⟨earlier', J', heq', hhard⟩ := hex.failed
          obtain rfl : J' = J := by simpa [heq] using congrArg List.getLast? (heq'.symm.trans heq)
          have hJ : J'.protectionStage = stage := (of_decide_eq_true hhard).1
          have hlt := hmax (by rw [← hstage, hJ]; exact hhard)
          exact absurd hex.attempts (not_le.mpr hlt)
        · obtain rfl : J' = J := by simpa [heq] using congrArg List.getLast? (heq'.symm.trans heq)
          rwa [← hstage]
    refine ⟨.inr ⟨s.jobs, order.job cfg, hjobs, hrank⟩, ?_⟩
    have hne : order.stage ≠ stage := by
      rintro rfl
      exact lt_irrefl _ hrank
    simp [enqueued, hjobs, Order.job, hne]
  | linked p leg id n ha hplace hjobs hleg hsweeps =>
    refine ⟨?_, by rw [enqueued, enqueued, hjobs]⟩
    rcases hpast with hex | hrank
    · exact absurd hex.linked (h.linking p leg id n hplace).2.1
    · exact .inr (by rw [hjobs]; exact hrank)

lemma enqueued_run (hmax : 1 ≤ cfg.maxAttempts) (h : Inv cfg s) (hpast : Past cfg stage s)
    {as : List Action} (has : StepsMeet (step cfg) InTurn s as) :
    enqueued (run (step cfg) s as) stage = enqueued s stage := by
  have hkeeps : ∀ s' a, (Inv cfg s' ∧ Past cfg stage s' ∧ enqueued s' stage = enqueued s stage) →
      InTurn s' a → Inv cfg (step cfg s' a) ∧ Past cfg stage (step cfg s' a) ∧
        enqueued (step cfg s' a) stage = enqueued s stage := by
    rintro s' a ⟨hinv, hpast, hsame⟩ hturn
    obtain ⟨hpast', hsame'⟩ := past_step hinv hturn hpast
    exact ⟨inv_step hmax s' a hinv hturn, hpast', hsame'.trans hsame⟩
  exact (run_invariant_of_meets hkeeps ⟨h, hpast, rfl⟩ has).2.2

lemma decision_of_wants {trade : Trade} {sl : ℚ} {job : Option Job} (h : Wants cfg s trade stage sl)
    (hjob : ∀ j, job = some j → j.protectionStage ≠ stage) :
    decision cfg s.env.trades s.env.incrementalProtection s.leg job =
      .enqueue ⟨trade, stage, sl, 1⟩ := by
  have hattempt : reconcile cfg.maxAttempts s.leg stage job = .attempt 1 := by
    cases job with
    | none => rfl
    | some j => rw [reconcile, if_neg (hjob j rfl)]
  have hopen : trade.closeTime.isSome = false := by rw [h.isOpen]; rfl
  simp only [decision, h.current, hopen, h.desired, not_le.mpr h.higher, hattempt, h.reducing,
    Bool.false_eq_true, if_false, if_true]

lemma enqueued_of_wants {trade : Trade} {sl : ℚ} {p : ℕ}
    (h : Wants cfg s trade stage sl) (hnone : ∀ j ∈ s.jobs, j.protectionStage ≠ stage)
    (hidle : s.sweeps p = .idle) : Enqueued (run (step cfg) s (turn p)) stage sl := by
  have hjob : ∀ j, s.leg.breakevenJob.bind (s.jobs[·]?) = some j → j.protectionStage ≠ stage := by
    intro j hj
    obtain ⟨id, -, hid⟩ := Option.bind_eq_some_iff.mp hj
    exact hnone j (List.mem_of_getElem? hid)
  have hdecision := decision_of_wants h hjob
  let order : Order := ⟨trade, stage, sl, 1⟩
  -- the jobs that the sweep finds when it looks for one in flight
  have hfree : ∀ jobs, Later s.jobs jobs → protectionInflight jobs trade.ticket stage = false := by
    intro jobs hlater
    rw [protectionInflight, List.any_eq_false]
    intro j' hj'
    obtain ⟨j, hj, hsame⟩ := hlater.exists_mem hj'
    have hne : j'.protectionStage ≠ stage := by rw [hsame.stage]; exact hnone j hj
    simp [hne]
  have hend : ∀ jobs, Later s.jobs jobs → ∀ s', s'.jobs = jobs → s'.leg = s.leg →
      s'.sweeps p = .checking s.env.windowsUsername s.leg order →
      Enqueued (run (step cfg) s' [.check p, .create p, .link p]) stage sl := by
    intro jobs hlater s' hjobs hleg hplace
    have hinflight : protectionInflight s'.jobs trade.ticket stage = false := by
      rw [hjobs]; exact hfree jobs hlater
    have hcheck : step cfg s' (.check p) = s'.goto p (.creating s.leg order) := by
      simp [step, hplace, order, h.username, h.ticket, hinflight]
    let created : State := { s'.goto p (.creating s.leg order) with jobs := s'.jobs ++ [order.job cfg] }
    have hcreate : step cfg (s'.goto p (.creating s.leg order)) (.create p) =
        created.goto p (.linking s.leg s'.jobs.length 1) := by
      simp [step, State.goto, Order.job, order, created]
    rw [run_cons, run_cons, run_cons, run_nil, hcheck, hcreate]
    refine ⟨⟨s'.jobs, order.job cfg, ?_, rfl, rfl, rfl⟩, ?_, ?_⟩
    · simp [step, State.goto, created]
    · simp [step, State.goto, created, latest_append]
    · simp [step, State.goto, created]
  have hstart : step cfg s (.start p) =
      s.goto p (.started s.env.incrementalProtection s.env.windowsUsername) := by
    simp [step, hidle, h.enabled, h.promoted]
  rw [turn, run_cons, run_cons, run_cons, run_cons, hstart]
  have hload : step cfg (s.goto p (.started s.env.incrementalProtection s.env.windowsUsername)) (.load p) =
      s.goto p (.loaded s.env.incrementalProtection s.env.windowsUsername s.leg
        (s.leg.breakevenJob.bind (s.jobs[·]?))) := by
    simp [step, State.goto]
  have hdecide : step cfg (s.goto p (.loaded s.env.incrementalProtection s.env.windowsUsername s.leg
        (s.leg.breakevenJob.bind (s.jobs[·]?)))) (.decide p) =
      s.follow p s.env.windowsUsername s.leg (.enqueue order) := by
    have hplace : (s.goto p (.loaded s.env.incrementalProtection s.env.windowsUsername s.leg
        (s.leg.breakevenJob.bind (s.jobs[·]?)))).sweeps p = _ := Function.update_self ..
    have henv : (s.goto p (.loaded s.env.incrementalProtection s.env.windowsUsername s.leg
        (s.leg.breakevenJob.bind (s.jobs[·]?)))).env = s.env := rfl
    rw [step, hplace]
    dsimp only
    rw [henv, hdecision]
    simp [State.follow, State.goto, order]
  rw [hload, hdecide]
  by_cases hlock : stage = .tp2Locked
  · refine hend (s.jobs.map (Job.supersede trade.ticket)) (later_map (later_supersede _) _) _ ?_ ?_ ?_
    · simp [State.follow, order, hlock, step, State.goto]
    · simp [State.follow, order, hlock, step, State.goto]
    · simp [State.follow, order, hlock, step, State.goto]
  · refine hend s.jobs (later_refl _) _ ?_ ?_ ?_
    · simp [State.follow, order, hlock, step, State.goto]
    · simp [State.follow, order, hlock, step, State.goto]
    · simp [State.follow, order, hlock, step, State.goto]

/-- **The attempts for a stage are bounded**, in every run in which each job is created by a sweep that has
read the leg as it is, with its latest job, for a stage that is not behind the one of this job, and a
setting that allows an attempt: hard failures never exceed the bound, soft ones do not count, and an
exhausted stage is never enqueued again, while the next one can be. -/
theorem protection_bounded (cfg : Config) (env : Env) (hmax : 1 ≤ cfg.maxAttempts) (as : List Action)
    (h : StepsMeet (step cfg) InTurn (init env) as) : Bounded cfg env as := by
  have hinv : ∀ pre post, as = pre ++ post → Inv cfg (run (step cfg) (init env) pre) := by
    rintro pre post rfl
    exact run_invariant_of_meets (inv_step hmax) (inv_init hmax env) (stepsMeet_append.mp h).1
  refine ⟨?_, ?_, ?_, ?_⟩
  · rintro pre ⟨post, rfl⟩ stage
    have hle : (run (step cfg) (init env) pre).jobs.countP (Job.isHard stage) ≤
        (run (step cfg) (init env) pre).jobs.countP (Job.mayCount stage) :=
      List.countP_mono_left fun j _ => Job.mayCount_of_isHard
    have hcount := (hinv pre post rfl).count stage
    omega
  · rintro pre ⟨post, rfl⟩ s rfl hlinked earlier job heq
    exact ((hinv pre post rfl).numbered hlinked earlier job heq).number
  · rintro pre mid post rfl stage hex
    rw [run_append]
    exact enqueued_run hmax (hinv pre _ rfl) (.inl hex)
      (stepsMeet_append.mp (stepsMeet_append.mp h).2).1
  · rintro pre ⟨post, rfl⟩ stage hex trade stage' sl hrank hwants p hidle
    have hstate := hinv pre post rfl
    rw [run_append]
    refine enqueued_of_wants hwants (fun j hj hstage => ?_) hidle
    obtain ⟨earlier, job, heq, hhard⟩ := hex.failed
    have hjob : job.protectionStage = stage := (of_decide_eq_true hhard).1
    have hle : j.protectionStage.rank ≤ job.protectionStage.rank := by
      rw [heq, List.mem_append, List.mem_singleton] at hj
      rcases hj with hj | rfl
      · exact ((hstate.numbered hex.linked) earlier job heq).rank j hj
      · exact le_refl _
    rw [hstage, hjob] at hle
    omega

end

/-! ### An attempt too many -/

/-- A long signal with entries at 100 and targets at 110, 120 and 130; the third leg is followed. -/
def sampleConfig : Config where
  maxAttempts := 3
  tpReachFraction := 9 / 10
  plan :=
    { direction := .buy
      stopLoss := some 90
      legs := fun i => if i = 1 then some ⟨some 110⟩ else if i = 2 then some ⟨some 120⟩
        else if i = 3 then some ⟨some 130⟩ else none }
  legIndex := 3

/-- The first target has been hit; the second has, if it is given; and whether the source has opted in. -/
def sampleEnv (second : Option Time) (incremental : Bool) : Env where
  breakevenEnabled := true
  promoted := true
  incrementalProtection := incremental
  windowsUsername := "trader"
  trades := fun i =>
    if i = 1 then some { ticket := "1", openPrice := some 100, closePrice := some 110, closeTime := some 1 }
    else if i = 2 then
      some { ticket := "2", openPrice := some 100, closePrice := second.map fun _ => 120, closeTime := second }
    else if i = 3 then some { ticket := "3", openPrice := some 100 }
    else none

def failedTurn (id : ℕ) : List Action := turn 0 ++ [.claim id, .finish id (.failed false)]

/-- The breakeven is exhausted, and so is, in the end, the lock. -/
def exhausting : List Action :=
  failedTurn 0 ++ failedTurn 1 ++ failedTurn 2 ++ turn 0 ++ [.env (sampleEnv (some 2) true)] ++
    failedTurn 3 ++ failedTurn 4 ++ failedTurn 5

theorem protection_bounded_exhausting : Bounded sampleConfig (sampleEnv none true) exhausting :=
  protection_bounded sampleConfig (sampleEnv none true) (by decide) exhausting (by decide +kernel)

/-- The opt-in of the source is withdrawn after the first attempt at the lock. -/
def withdrawn : List Action :=
  failedTurn 0 ++ failedTurn 1 ++ failedTurn 2 ++ [.env (sampleEnv (some 2) true)] ++ failedTurn 3 ++
    [.env (sampleEnv (some 2) false)] ++ failedTurn 4

/-- The breakeven is wanted again, and its count starts anew: it fails hard for the fourth time. -/
theorem not_protection_bounded :
    ¬ ∀ (cfg : Config) (env : Env) (as : List Action), 1 ≤ cfg.maxAttempts → Bounded cfg env as := by
  intro h
  have hbound := (h sampleConfig (sampleEnv none true) withdrawn (by decide)).bound withdrawn
    (List.prefix_refl _) .breakeven
  revert hbound
  decide +kernel

end Protection
end GuvFX
