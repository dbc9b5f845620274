/-
# The ladder goes up

The stage of a leg is saved by a sweep from the copy that it has read, after it has seen a job for the
stage whose position was open at the broker.  When no other sweep has written the leg in between, the
stage goes up, the sweep finds no other job for the same position and stage in flight, and the stop-loss
that it enqueues reduces the risk against that of the stage the leg has.

Two jobs of a leg may be in flight at once.  A breakeven that a worker has claimed is left alone when the
second target is hit; the broker refuses it if it comes last.
-/
import GuvFX.Execution.ProtectionRuns

namespace GuvFX
namespace Protection

open Runs
open Consumer (JobStatus)

/-- A job for a position and a stage that a worker may still end. -/
def Job.inFlight (ticket : String) (stage : Stage) (job : Job) : Bool :=
  job.isOpen && job.ticket = ticket && job.protectionStage = stage

/-- The sweep writes from a copy of the leg that is as the leg is, which links its latest job. -/
def Place.Fresh (s : State) : Place → Prop
  | .applying leg _ => leg = s.leg
  | .creating leg _ => leg = s.leg ∧ s.leg.breakevenJob = latest s.jobs
  | _ => True

/-- Sweeps write what they have decided from the leg as it is. -/
def Fresh (s : State) : Action → Prop
  | .apply p _ | .create p => (s.sweeps p).Fresh s
  | _ => True

instance (s : State) : DecidablePred (Place.Fresh s)
  | .applying .. => inferInstanceAs (Decidable (_ = _))
  | .creating .. => inferInstanceAs (Decidable (_ ∧ _))
  | .idle | .started .. | .loaded .. | .superseding .. | .checking .. | .linking .. => .isTrue trivial

instance (s : State) : DecidablePred (Fresh s)
  | .apply .. | .create _ => inferInstanceAs (Decidable (Place.Fresh s _))
  | .env _ | .claim _ | .finish .. | .start _ | .load _ | .decide _ | .supersede _ | .check _
  | .link _ | .stop _ => .isTrue trivial

structure Ladder (cfg : Config) (env : Env) (as : List Action) : Prop where
  monotone : ∀ pre mid post, as = pre ++ (mid ++ post) →
    (run (step cfg) (init env) pre).leg.protectionStage.rank ≤
      (run (step cfg) (init env) (pre ++ mid)).leg.protectionStage.rank
  /-- A stage that is new on the leg is that of a job that has moved the stop-loss of an open position. -/
  verified : ∀ pre a post, as = pre ++ a :: post → ∀ stage,
    (run (step cfg) (init env) (pre ++ [a])).leg.protectionStage = stage →
    (run (step cfg) (init env) pre).leg.protectionStage ≠ stage →
    ∃ job ∈ (run (step cfg) (init env) pre).jobs,
      job.protectionStage = stage ∧ job.status = .success ∧ job.alreadyClosed = false
  inFlight : ∀ pre, pre <+: as → ∀ ticket stage,
    (run (step cfg) (init env) pre).jobs.countP (Job.inFlight ticket stage) ≤ 1
  /-- A stop-loss that is enqueued reduces the risk against that of the stage of the leg. -/
  reducing : ∀ pre p post, as = pre ++ .create p :: post → ∀ leg order,
    (run (step cfg) (init env) pre).sweeps p = .creating leg order →
    isRiskReducing cfg.plan.direction (some order.sl)
      (baselineSl cfg (run (step cfg) (init env) pre).leg order.trade) = true

section

variable {cfg : Config} {s : State} {a : Action} {p : ℕ}

/-- What a sweep has found before it creates a job: unless there is a newer one, none is in flight. -/
def Place.Alone (jobs : List Job) : Place → Prop
  | .creating leg order => leg.breakevenJob = latest jobs →
    protectionInflight jobs order.trade.ticket order.stage = false
  | _ => True

lemma Job.Later.inFlight {job job' : Job} (h : job.Later job') {ticket : String} {stage : Stage}
    (hflight : job'.inFlight ticket stage = true) : job.inFlight ticket stage = true := by
  cases hopen : job.isOpen with
  | true =>
    simp only [Job.inFlight, Bool.and_eq_true, decide_eq_true_eq] at hflight ⊢
    exact ⟨⟨hopen, h.ticket ▸ hflight.1.2⟩, h.stage ▸ hflight.2⟩
  | false =>
    rw [h.ended hopen] at hflight
    exact hflight

lemma Later.countP_inFlight {jobs jobs' : List Job} (h : Later jobs jobs') (ticket : String)
    (stage : Stage) :
    jobs'.countP (Job.inFlight ticket stage) ≤ jobs.countP (Job.inFlight ticket stage) := by
  induction h with
  | nil => exact Nat.le_refl _
  | @cons job job' jobs jobs' hjob _ ih =>
    rw [List.countP_cons, List.countP_cons]
    by_cases hflight : job'.inFlight ticket stage = true
    · rw [if_pos hflight, if_pos (hjob.inFlight hflight)]
      omega
    · rw [if_neg hflight]
      omega

lemma protectionInflight_eq_false {jobs : List Job} {ticket : String} {stage : Stage} :
    protectionInflight jobs ticket stage = false ↔ jobs.countP (Job.inFlight ticket stage) = 0 := by
  rw [protectionInflight, List.any_eq_false, List.countP_eq_zero]
  exact Iff.rfl

lemma Place.Alone.later {jobs jobs' : List Job} {place : Place} (h : place.Alone jobs)
    (hlater : Later jobs jobs') : place.Alone jobs' := by
  cases place with
  | creating leg order =>
    intro hlink
    rw [latest_eq hlater] at hlink
    have hzero := protectionInflight_eq_false.mp (h hlink)
    exact protectionInflight_eq_false.mpr (Nat.le_zero.mp (hzero ▸ hlater.countP_inFlight _ _))
  | _ => trivial

/-- What the runs keep whose sweeps write from fresh copies. -/
structure Climbs (cfg : Config) (s : State) : Prop where
  knows : ∀ q, (s.sweeps q).Knows cfg s.jobs
  linked : s.Linked
  alone : ∀ q, (s.sweeps q).Alone s.jobs
  inFlight : ∀ ticket stage, s.jobs.countP (Job.inFlight ticket stage) ≤ 1

lemma climbs_init (env : Env) : Climbs cfg (init env) where
  knows _ := trivial
  linked _ h := nomatch h
  alone _ := trivial
  inFlight _ _ := Nat.zero_le _

lemma creating_step {q : ℕ} {leg : Leg} {order : Order}
    (h : (step cfg s a).sweeps q = .creating leg order) :
    s.sweeps q = .creating leg order ∨
      (step cfg s a).jobs = s.jobs ∧
        protectionInflight s.jobs order.trade.ticket order.stage = false := by
  have hmoved : ∀ {s' : State} {p place}, s'.sweeps = s.sweeps →
      (s'.goto p place).sweeps q = .creating leg order → place ≠ .creating leg order →
      s.sweeps q = .creating leg order := by
    intro s' p place hsweeps h hplace
    simp only [State.goto, hsweeps, Function.update_apply] at h
    split at h
    · exact absurd h hplace
    · exact h
  revert h
  cases a with
  | env e | claim i | finish i outcome => exact .inl
  | start p =>
    simp only [step]
    split
    · split
      · exact fun h => .inl (hmoved rfl h (by simp))
      · exact .inl
    · exact .inl
  | load p =>
    simp only [step]
    split
    · exact fun h => .inl (hmoved rfl h (by simp))
    · exact .inl
  | decide p =>
    simp only [step]
    split
    · rename_i allow username leg' job hplace
      cases decision cfg s.env.trades allow leg' job with
      | skip | apply stage => exact fun h => .inl (hmoved rfl h (by simp))
      | enqueue order' =>
        simp only [State.follow]
        split <;> exact fun h => .inl (hmoved rfl h (by simp))
    · exact .inl
  | apply p now | supersede p | create p | link p =>
    simp only [step]
    split
    · exact fun h => .inl (hmoved rfl h (by simp))
    · exact .inl
  | check p =>
    simp only [step]
    split
    · rename_i username leg' order' hplace
      split
      · exact fun h => .inl (hmoved rfl h (by simp))
      · rename_i hfree
        intro h
        rw [not_or, not_or] at hfree
        simp only [State.goto, Function.update_apply] at h
        split at h
        · cases h
          exact .inr ⟨rfl, by simpa using hfree.2.2⟩
        · exact .inl h
    · exact .inl
  | stop p => exact fun h => .inl (hmoved rfl h (by simp))

lemma alone_step (h : Climbs cfg s) (q : ℕ) : ((step cfg s a).sweeps q).Alone (step cfg s a).jobs := by
  cases hplace : (step cfg s a).sweeps q with
  | creating leg order =>
    rcases creating_step hplace with hold | ⟨hjobs, hfree⟩
    · have halone := h.alone q
      rw [hold] at halone
      cases step_effect cfg s a with
      | quiet hlater =>
        have hcreating : (Place.creating leg order).Alone s.jobs := halone
        exact hcreating.later hlater
      | applied _ _ _ _ _ _ hjobs | linked _ _ _ _ _ _ hjobs =>
        rw [hjobs]
        exact halone
      | created p leg' order' _ _ hjobs =>
        -- the copy of the sweep is older than the job
        intro hlink
        rw [hjobs, latest_append] at hlink
        have hknown := h.knows q
        rw [hold] at hknown
        obtain ⟨job, hsnapshot, -⟩ := hknown
        rw [hlink] at hsnapshot
        cases job with
        | none => exact hsnapshot.elim
        | some job =>
          obtain ⟨job', hjob', -⟩ := hsnapshot
          exact absurd (List.getElem?_eq_some_iff.mp hjob').1 (lt_irrefl _)
    · intro _
      rw [hjobs]
      exact hfree
  | _ => trivial

lemma climbs_step (s : State) (a : Action) (h : Climbs cfg s) (hfresh : Fresh s a) :
    Climbs cfg (step cfg s a) := by
  refine ⟨knows_step h.knows h.linked, linked_step h.knows h.linked, alone_step h,
    fun ticket stage => ?_⟩
  cases step_effect cfg s a with
  | quiet hlater => exact (hlater.countP_inFlight ticket stage).trans (h.inFlight ticket stage)
  | applied _ _ _ _ _ _ hjobs | linked _ _ _ _ _ _ hjobs =>
    rw [hjobs]
    exact h.inFlight ticket stage
  | created p leg order ha hplace hjobs =>
    subst ha
    have halone := h.alone p
    rw [hplace] at halone
    rw [Fresh, hplace] at hfresh
    have hfree := protectionInflight_eq_false.mp (halone (hfresh.1 ▸ hfresh.2))
    rw [hjobs, List.countP_append]
    by_cases hsame : order.trade.ticket = ticket ∧ order.stage = stage
    · obtain ⟨rfl, rfl⟩ := hsame
      have hone : [order.job cfg].countP (Job.inFlight order.trade.ticket order.stage) ≤ 1 :=
        List.countP_le_length
      omega
    · have hzero : [order.job cfg].countP (Job.inFlight ticket stage) = 0 := by
        simp only [List.countP_eq_zero, List.mem_singleton, forall_eq]
        intro hflight
        simp only [Job.inFlight, Order.job, Bool.and_eq_true] at hflight
        exact hsame ⟨of_decide_eq_true hflight.1.2, of_decide_eq_true hflight.2⟩
      have hone := h.inFlight ticket stage
      omega

lemma stage_step (h : Climbs cfg s) :
    (step cfg s a).leg.protectionStage = s.leg.protectionStage ∨
      ∃ p now leg stage job, a = .apply p now ∧ s.sweeps p = .applying leg stage ∧
        (step cfg s a).leg.protectionStage = stage ∧ Verified leg (some job) stage ∧
        ∃ job' ∈ s.jobs, job.Later job' := by
  cases step_effect cfg s a with
  | quiet _ hleg | created _ _ _ _ _ _ hleg => exact .inl (by rw [hleg])
  | linked _ _ _ _ _ _ _ hleg => exact .inl (by rw [hleg]; rfl)
  | applied p now leg stage ha hplace _ hleg =>
    have hknown := h.knows p
    rw [hplace] at hknown
    obtain ⟨job, hsnapshot, hverified⟩ := hknown
    obtain ⟨j, rfl, -⟩ := hverified.success
    refine .inr ⟨p, now, leg, stage, j, ha, hplace, by rw [hleg], hverified, ?_⟩
    cases hlink : leg.breakevenJob with
    | none =>
      rw [hlink] at hsnapshot
      exact hsnapshot.elim
    | some id =>
      rw [hlink] at hsnapshot
      obtain ⟨job', hjob', hlater⟩ := hsnapshot
      exact ⟨job', List.mem_of_getElem? hjob', hlater⟩

lemma rank_step (h : Climbs cfg s) (hfresh : Fresh s a) :
    s.leg.protectionStage.rank ≤ (step cfg s a).leg.protectionStage.rank := by
  rcases stage_step (a := a) h with hsame | ⟨p, now, leg, stage, job, rfl, hplace, hstage, hverified, -⟩
  · rw [hsame]
  · rw [Fresh, hplace] at hfresh
    have hleg : leg = s.leg := hfresh
    rw [hstage, ← hleg]
    exact hverified.higher.le

/-- **The ladder goes up**, in every run whose sweeps write to the leg what they have decided from the leg
as it is: its stage never goes down, and advances to that of a job that has moved the stop-loss of an open
position; one job for a position and a stage is in flight; and every stop-loss that is enqueued reduces the
risk strictly against that of the stage of the leg. -/
theorem ladder_climbs (cfg : Config) (env : Env) (as : List Action)
    (h : StepsMeet (step cfg) Fresh (init env) as) : Ladder cfg env as := by
  have hinv : ∀ pre post, as = pre ++ post → Climbs cfg (run (step cfg) (init env) pre) := by
    rintro pre post rfl
    exact run_invariant_of_meets climbs_step (climbs_init env) (stepsMeet_append.mp h).1
  refine ⟨?_, ?_, ?_, ?_⟩
  · rintro pre mid post rfl
    have hmid := (stepsMeet_append.mp (stepsMeet_append.mp h).2).1
    have hkeeps : ∀ s a,
        (Climbs cfg s ∧ (run (step cfg) (init env) pre).leg.protectionStage.rank ≤ s.leg.protectionStage.rank) →
        Fresh s a → Climbs cfg (step cfg s a) ∧
          (run (step cfg) (init env) pre).leg.protectionStage.rank ≤
            (step cfg s a).leg.protectionStage.rank :=
      fun s a hs hfresh => ⟨climbs_step s a hs.1 hfresh, hs.2.trans (rank_step hs.1 hfresh)⟩
    rw [run_append]
    exact (run_invariant_of_meets hkeeps ⟨hinv pre _ rfl, le_refl _⟩ hmid).2
  · rintro pre a post rfl stage hstage hne
    rw [run_concat] at hstage
    rcases stage_step (a := a) (hinv pre _ rfl) with
      hsame | ⟨p, now, leg, stage', job, -, -, hstage', hverified, job', hmem, hlater⟩
    · exact absurd (hsame.symm.trans hstage) hne
    · obtain rfl : stage' = stage := hstage'.symm.trans hstage
      obtain ⟨j, hj, hjstage, hsuccess, hopen⟩ := hverified.success
      obtain rfl : job = j := Option.some.inj hj
      have hended : job.isOpen = false := by simp [Job.isOpen, hsuccess]
      rw [hlater.ended hended] at hmem
      exact ⟨job, hmem, hjstage, hsuccess, hopen⟩
  · rintro pre ⟨post, rfl⟩ ticket stage
    exact (hinv pre post rfl).inFlight ticket stage
  · rintro pre p post rfl leg order hplace
    have hfresh := (stepsMeet_append.mp h).2.1
    have hknown := (hinv pre _ rfl).knows p
    rw [hplace] at hknown
    rw [Fresh, hplace] at hfresh
    obtain ⟨job, -, hdecided⟩ := hknown
    rw [← hfresh.1]
    exact hdecided.reducing

end

/-! ### Two jobs of a leg -/

/-- Both targets are hit, one after the other, and both moves of the stop-loss succeed. -/
def climbing : List Action :=
  turn 0 ++ [.claim 0, .finish 0 (.success false), .start 1, .load 1, .decide 1, .apply 1 10,
    .env (sampleEnv (some 2) true)] ++ turn 0 ++
    [.claim 1, .finish 1 (.success false), .start 1, .load 1, .decide 1, .apply 1 20]

theorem ladder_climbs_climbing : Ladder sampleConfig (sampleEnv none true) climbing :=
  ladder_climbs sampleConfig (sampleEnv none true) climbing (by decide +kernel)

/-- The second target is hit while a worker has the breakeven. -/
def overtaking : List Action :=
  turn 0 ++ [.claim 0, .env (sampleEnv (some 2) true)] ++ turn 0

/-- The lock is enqueued beside a breakeven that has been claimed: two jobs of the leg are in flight. -/
theorem not_one_inFlight :
    ¬ ∀ (cfg : Config) (env : Env) (as : List Action),
      (run (step cfg) (init env) as).jobs.countP Job.isOpen ≤ 1 := by
  intro h
  have htwo := h sampleConfig (sampleEnv none true) overtaking
  revert htwo
  decide +kernel

end Protection
end GuvFX
