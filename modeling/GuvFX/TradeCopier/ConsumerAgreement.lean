/-
# The reconciliation status and the job

`_finalize_reconcile` and the sweep decide under the lock of the job, and leave a terminal
reconciliation status alone.  The read-back does not: it writes the status it found outside any
transaction, whatever the row holds by then.  A read-back that comes late therefore rewrites a
terminal status, and may set it against a job that is already finished.  This is all that can go
wrong.
-/
import GuvFX.TradeCopier.ConsumerRelease

namespace GuvFX
namespace Consumer

open Checks Flags Reconcile Runs

/-! ### The replication of a job over time -/

/-- The change of a replication row that the consumer makes. -/
def withStatus (c : ReconStatus) (rep : CopierReplication) : CopierReplication :=
  { rep with reconciliationStatus := c }

@[simp] lemma routesTo_withStatus (j : ℕ) (c : ReconStatus) (rep : CopierReplication) :
    routesTo j (withStatus c rep) = routesTo j rep := rfl

variable {r p : ℕ} {rep rep' : CopierReplication}

lemma routesTo_of_replicationForJob {db : Db} {j : ℕ} (h : replicationForJob db j = some (r, rep)) :
    routesTo j rep = true := by
  rw [replicationForJob] at h
  have hfirst := Table.of_first h
  exact hfirst

lemma get_of_replicationForJob {db : Db} {j : ℕ} (h : replicationForJob db j = some (r, rep)) :
    db.replications.get r = some rep :=
  Table.get_of_first h

lemma job_unique {db : Db} {i j : ℕ} (hi : replicationForJob db i = some (r, rep))
    (hj : replicationForJob db j = some (r, rep')) : i = j := by
  have hrep : rep = rep' :=
    Option.some.inj ((get_of_replicationForJob hi).symm.trans (get_of_replicationForJob hj))
  subst hrep
  have hroute := routesTo_of_replicationForJob hi
  have hroute' := routesTo_of_replicationForJob hj
  simp only [routesTo, decide_eq_true_eq] at hroute hroute'
  exact Option.some.inj (hroute.1.symm.trans hroute'.1)

/-- The ways in which a step writes the status `c` to the replication `r`. -/
inductive ReconWrite (s : State) (r : ℕ) (c : ReconStatus) : Action → Prop where
  | commit (p : ℕ) (t : Txn) (hpc : s.pc p = .commit t) (hrecon : t.recon = some (r, c)) :
      ReconWrite s r c (.commit p)
  | readBack (p : ℕ) (result : MasterReadResult) (plan : ReadPlan) (reader : Reader)
      (hpc : s.pc p = .rest (.readBack plan reader)) (hr : plan.replicationId = r)
      (hstatus : partialCloseStatus plan.followerTicket plan.intendedRemaining plan.step result
        = some c) :
      ReconWrite s r c (.readBack p result)

/-- **A step writes one status at most.** -/
lemma replications_step (s : State) (a : Action) :
    (step s a).db.replications = s.db.replications ∨
      ∃ r c, ReconWrite s r c a ∧
        (step s a).db.replications = s.db.replications.modify r (withStatus c) := by
  have heffect := step_effect s a
  generalize step s a = s' at heffect ⊢
  cases heffect with
  | commit p t hpc =>
    cases hrecon : t.recon with
    | none => exact Or.inl (by simp [Db.apply, hrecon])
    | some e =>
      refine Or.inr ⟨e.1, e.2, .commit p t hpc hrecon, ?_⟩
      simp only [Db.apply, hrecon]
      rfl
  | readBack p result plan reader recon hpc hrecon =>
    cases recon with
    | none => exact Or.inl rfl
    | some c => exact Or.inr ⟨plan.replicationId, c, .readBack p result plan reader hpc rfl hrecon, rfl⟩
  | _ => exact Or.inl rfl

/-- The replication of a job after a write to the replication `r`. -/
lemma replicationForJob_of_modify {db db' : Db} {c : ReconStatus}
    (h : db'.replications = db.replications.modify r (withStatus c)) (j : ℕ) :
    replicationForJob db' j =
      (replicationForJob db j).map fun e => if e.1 = r then (e.1, withStatus c e.2) else e := by
  rw [replicationForJob, h, replicationForJob]
  exact Table.first_modify fun rep _ => routesTo_withStatus j c rep

variable {s : State}

lemma replicationForJob_step (a : Action) {j : ℕ} (h : replicationForJob s.db j = some (r, rep)) :
    ∃ rep', replicationForJob (step s a).db j = some (r, rep') := by
  rcases replications_step s a with heq | ⟨r', c, -, heq⟩
  · exact ⟨rep, by rw [replicationForJob, heq]; exact h⟩
  · rw [replicationForJob_of_modify heq j, h]
    by_cases hr : r = r' <;> simp [hr]

lemma recorded_step (a : Action) {j : ℕ} (h : replicationForJob s.db j = some (r, rep))
    (h' : replicationForJob (step s a).db j = some (r, rep')) :
    rep'.reconciliationStatus = rep.reconciliationStatus ∨
      ReconWrite s r rep'.reconciliationStatus a := by
  rcases replications_step s a with heq | ⟨r', c, hwrite, heq⟩
  · rw [replicationForJob, heq] at h'
    rw [replicationForJob] at h
    rw [h] at h'
    cases h'
    exact Or.inl rfl
  · rw [replicationForJob_of_modify heq j, h] at h'
    by_cases hr : r = r'
    · subst hr
      simp only [Option.map_some, if_true, Option.some.injEq, Prod.mk.injEq, true_and] at h'
      subst h'
      exact Or.inr hwrite
    · simp only [Option.map_some, hr, if_false, Option.some.injEq, Prod.mk.injEq, true_and] at h'
      subst h'
      exact Or.inl rfl

/-! ### The condition on the steps -/

/-- The recorded status of the job `j`, if it has a replication. -/
def recorded (db : Db) (j : ℕ) : Option ReconStatus :=
  (replicationForJob db j).map fun e => e.2.reconciliationStatus

/-- Has the job `j` a terminal status? -/
def jobTerminal (db : Db) (j : ℕ) : Bool := (db.jobs.get j).any fun job => job.status.isTerminal

/-- Has an open transaction on the job `j` computed a reconciliation status that it has not
committed yet? -/
def reconWritePending (s : State) (j : ℕ) : Bool :=
  match s.locks j with
  | none => false
  | some q =>
    match s.pc q with
    | .commit t => t.recon.isSome
    | _ => false

/-- The condition under which the reconciliation of a job keeps to its own rules.  A read-back
is recorded while its job is not terminal, its replication is not terminal, and no transaction
on the job has a status still to write; a completion without a read-back gives the job to the
operator only if no read-back of another session has reconciled the open job. -/
def guarded (s : State) : Action → Bool
  | .readBack p _ =>
    match s.pc p with
    | .rest (.readBack plan _) =>
      !jobTerminal s.db plan.jobId &&
        (recorded s.db plan.jobId).all (fun c => c ∉ partialTerminalStates) &&
        !reconWritePending s plan.jobId
    | _ => true
  | .body p _ =>
    match s.pc p with
    | .locked (.finalizeReconcile _ (some .partialOperatorReview) _ _) j =>
      jobTerminal s.db j || recorded s.db j ≠ some .partialReconciled
    | _ => true
  | _ => true

lemma guarded_readBack {result : MasterReadResult} {plan : ReadPlan} {reader : Reader}
    (hpc : s.pc p = .rest (.readBack plan reader)) (hg : guarded s (.readBack p result) = true) :
    jobTerminal s.db plan.jobId = false ∧
      (∀ c, recorded s.db plan.jobId = some c → c ∉ partialTerminalStates) ∧
      reconWritePending s plan.jobId = false := by
  simp only [guarded, hpc, Bool.and_eq_true, Bool.not_eq_true'] at hg
  refine ⟨hg.1.1, fun c hc => ?_, hg.2⟩
  simpa [hc] using hg.1.2

lemma guarded_body {i j : ℕ} {hex : { s : String // s ≠ "" }} {reason : Option String}
    {now : Time}
    (hpc : s.pc p = .locked (.finalizeReconcile i (some .partialOperatorReview) reason now) j)
    (hg : guarded s (.body p hex) = true) :
    jobTerminal s.db j = true ∨ recorded s.db j ≠ some .partialReconciled := by
  simpa [guarded, hpc] using hg

/-! ### The invariant -/

/-- A finished job is `SUCCESS` if and only if its replication is reconciled. -/
def Agrees (db : Db) (j : ℕ) : Prop :=
  ∀ job r rep, db.jobs.get j = some job → replicationForJob db j = some (r, rep) →
    job.status.isTerminal = true →
    (job.status = .success ↔ rep.reconciliationStatus = .partialReconciled)

/-- The status that a read-back of the job `j` has found and recorded: the unavailable one, or a
terminal one that the replication still has. -/
def FoundStatus (db : Db) (j : ℕ) (c : ReconStatus) : Prop :=
  c = .partialReconcileUnavailable ∨ c ∈ partialTerminalStates ∧
    ∀ r rep, replicationForJob db j = some (r, rep) → rep.reconciliationStatus = c

/-- What is known of a transaction that a session is about to run. -/
def Call.Consistent (db : Db) : Call → Prop
  | .finalizeReconcile j (some c) _ _ => c = .partialOperatorReview ∨ FoundStatus db j c
  | .sweepFinalize _ j (some c) => FoundStatus db j c
  | _ => True

def Call.names (j : ℕ) : Call → Prop
  | .finalizeReconcile i _ _ _ => i = j
  | .sweepFinalize _ i _ => i = j
  | _ => True

/-- What is known of a session outside any transaction. -/
def Rest.Consistent (db : Db) : Rest → Prop
  | .idle => True
  | .ready c => c.Consistent db
  | .completeRoute plan =>
    ∃ rep, replicationForJob db plan.jobId = some (plan.replicationId, rep)
  | .readBack plan _ => ∃ rep, replicationForJob db plan.jobId = some (plan.replicationId, rep)

/-- What is known of a transaction that is about to commit. -/
structure Txn.Consistent (db : Db) (t : Txn) : Prop where
  /-- A status is written to the replication of the locked job, over one that is not terminal. -/
  target : ∀ r c, t.recon = some (r, c) → ∃ rep, replicationForJob db t.jobId = some (r, rep) ∧
    rep.reconciliationStatus ∉ partialTerminalStates
  /-- After the commit, the job agrees with its replication. -/
  final : ∀ job r rep, db.jobs.get t.jobId = some job →
    replicationForJob db t.jobId = some (r, rep) →
    (t.row.getD job).status.isTerminal = true →
    ((t.row.getD job).status = .success ↔
      (t.recon.map Prod.snd).getD rep.reconciliationStatus = .partialReconciled)
  /-- A job is finished without a write to its replication only over a terminal status, or when
  it was finished before. -/
  settled : ∀ job r rep, t.recon = none → db.jobs.get t.jobId = some job →
    replicationForJob db t.jobId = some (r, rep) →
    (t.row.getD job).status.isTerminal = true →
    job.status.isTerminal = true ∨ rep.reconciliationStatus ∈ partialTerminalStates
  next : t.next.Consistent db

/-- The invariant of the reconciliation. -/
structure AgreementInv (s : State) : Prop where
  locks : LocksHeld s
  agrees : ∀ j, Agrees s.db j
  rest : ∀ p r, s.pc p = .rest r → r.Consistent s.db
  locked : ∀ p c j, s.pc p = .locked c j → c.Consistent s.db ∧ c.names j
  commit : ∀ p t, s.pc p = .commit t → t.Consistent s.db

/-! ### Terminal statuses are absorbing -/

lemma reconWritePending_of_commit (hlocks : LocksHeld s) {t : Txn} (hpc : s.pc p = .commit t)
    (hrecon : t.recon ≠ none) : reconWritePending s t.jobId = true := by
  have hlock : s.locks t.jobId = some p := hlocks p _ (by rw [hpc]; rfl)
  simp only [reconWritePending, hlock, hpc]
  exact Option.isSome_iff_ne_none.mpr hrecon

lemma not_terminal_of_reconWrite {a : Action} (h : AgreementInv s) (hg : guarded s a = true)
    {c : ReconStatus} (hwrite : ReconWrite s r c a) (hget : s.db.replications.get r = some rep) :
    rep.reconciliationStatus ∉ partialTerminalStates := by
  cases hwrite with
  | commit p t hpc hrecon =>
    obtain ⟨rep', hrep', hopen⟩ := (h.commit p t hpc).target r c hrecon
    rw [get_of_replicationForJob hrep'] at hget
    cases hget
    exact hopen
  | readBack p result plan reader hpc hr hstatus =>
    subst hr
    obtain ⟨rep', hrep'⟩ := h.rest p _ hpc
    rw [get_of_replicationForJob hrep'] at hget
    cases hget
    exact (guarded_readBack hpc hg).2.1 _ (by rw [recorded, hrep']; rfl)

/-- **A terminal status stays in a guarded step.** -/
lemma terminal_stays {a : Action} (h : AgreementInv s) (hg : guarded s a = true)
    (hget : s.db.replications.get r = some rep)
    (hterm : rep.reconciliationStatus ∈ partialTerminalStates) :
    (step s a).db.replications.get r = some rep := by
  rcases replications_step s a with heq | ⟨r', c, hwrite, heq⟩
  · rw [heq, hget]
  · have hne : r ≠ r' := by
      rintro rfl
      exact not_terminal_of_reconWrite h hg hwrite hget hterm
    rw [heq, Table.get_modify_of_ne _ _ hne, hget]

lemma replicationForJob_of_step {a : Action} {j : ℕ}
    (h' : replicationForJob (step s a).db j = some (r, rep')) :
    ∃ rep, replicationForJob s.db j = some (r, rep) := by
  cases h : replicationForJob s.db j with
  | none =>
    rcases replications_step s a with heq | ⟨r', c, -, heq⟩
    · rw [replicationForJob, heq] at h'
      rw [replicationForJob] at h
      simp [h] at h'
    · simp [replicationForJob_of_modify heq j, h] at h'
  | some e =>
    obtain ⟨r', rep⟩ := e
    obtain ⟨rep'', h''⟩ := replicationForJob_step a h
    rw [h''] at h'
    cases h'
    exact ⟨rep, rfl⟩

lemma FoundStatus.preserved {a : Action} (h : AgreementInv s) (hg : guarded s a = true) {j : ℕ}
    {c : ReconStatus} (hc : FoundStatus s.db j c) : FoundStatus (step s a).db j c := by
  rcases hc with hun | ⟨hterm, hall⟩
  · exact Or.inl hun
  · refine Or.inr ⟨hterm, fun r rep' hrep' => ?_⟩
    obtain ⟨rep, hrep⟩ := replicationForJob_of_step hrep'
    have hc := hall r rep hrep
    have hstay := terminal_stays h hg (get_of_replicationForJob hrep) (by rw [hc]; exact hterm)
    rw [get_of_replicationForJob hrep'] at hstay
    cases hstay
    exact hc

lemma Call.Consistent.preserved {a : Action} (h : AgreementInv s) (hg : guarded s a = true)
    {c : Call} (hc : c.Consistent s.db) : c.Consistent (step s a).db := by
  cases c with
  | finalizeReconcile j recon reason now =>
    cases recon with
    | none => trivial
    | some c => exact hc.imp_right (FoundStatus.preserved h hg)
  | sweepFinalize sweep j recon =>
    cases recon with
    | none => trivial
    | some c => exact FoundStatus.preserved h hg hc
  | _ => trivial

lemma Rest.Consistent.preserved {a : Action} (h : AgreementInv s) (hg : guarded s a = true)
    {r : Rest} (hr : r.Consistent s.db) : r.Consistent (step s a).db := by
  cases r with
  | idle => trivial
  | ready c => exact Call.Consistent.preserved h hg hr
  | completeRoute plan =>
    obtain ⟨rep, hrep⟩ := hr
    exact replicationForJob_step a hrep
  | readBack plan reader =>
    obtain ⟨rep, hrep⟩ := hr
    exact replicationForJob_step a hrep

/-! ### An open transaction stays consistent -/

lemma Txn.Consistent.preserved {a : Action} (h : AgreementInv s) (hg : guarded s a = true)
    {t : Txn} (hpc : s.pc p = .commit t) (hstay : (step s a).pc p = .commit t) :
    t.Consistent (step s a).db := by
  have ht := h.commit p t hpc
  have hget : (step s a).db.jobs.get t.jobId = s.db.jobs.get t.jobId :=
    jobs_get_of_held h.locks (by rw [hpc]; rfl) (hstay.trans hpc.symm)
  -- who writes to the replication of the job is a read-back of the same job
  have hother : ∀ r rep c, replicationForJob s.db t.jobId = some (r, rep) → ReconWrite s r c a →
      t.recon = none ∧ jobTerminal s.db t.jobId = false := by
    intro r rep c hrep hwrite
    cases hwrite with
    | commit q t' hpc' hrecon =>
      obtain ⟨rep', hrep', -⟩ := (h.commit q t' hpc').target r c hrecon
      have hjob : t.jobId = t'.jobId := job_unique hrep hrep'
      have hpq : p = q := h.locks.unique (by rw [hpc]; rfl) (by rw [hpc', hjob]; rfl)
      subst hpq
      simp [step, hpc, State.goto] at hstay
    | readBack q result plan reader hpc' hr hstatus =>
      subst hr
      obtain ⟨rep', hrep'⟩ := h.rest q _ hpc'
      have hjob : t.jobId = plan.jobId := job_unique hrep hrep'
      obtain ⟨hterm, -, hpending⟩ := guarded_readBack hpc' hg
      rw [← hjob] at hterm hpending
      refine ⟨?_, hterm⟩
      by_contra hrecon
      rw [reconWritePending_of_commit h.locks hpc hrecon] at hpending
      cases hpending
  -- so a status that changed belongs to a transaction that writes none, on an open job
  have hchanged : ∀ r rep rep', replicationForJob s.db t.jobId = some (r, rep) →
      replicationForJob (step s a).db t.jobId = some (r, rep') →
      rep'.reconciliationStatus = rep.reconciliationStatus ∨
        t.recon = none ∧ jobTerminal s.db t.jobId = false ∧
          rep.reconciliationStatus ∉ partialTerminalStates := by
    intro r rep rep' hrep hrep'
    rcases recorded_step a hrep hrep' with heq | hwrite
    · exact Or.inl heq
    · obtain ⟨hrecon, hterm⟩ := hother r rep _ hrep hwrite
      exact Or.inr ⟨hrecon, hterm,
        not_terminal_of_reconWrite h hg hwrite (get_of_replicationForJob hrep)⟩
  -- in that case the transaction does not finish the job
  have hunfinished : ∀ job r rep, s.db.jobs.get t.jobId = some job →
      replicationForJob s.db t.jobId = some (r, rep) → t.recon = none →
      jobTerminal s.db t.jobId = false → rep.reconciliationStatus ∉ partialTerminalStates →
      ¬ (t.row.getD job).status.isTerminal = true := by
    intro job r rep hjob hrep hrecon hterm hopen hfinal
    rcases ht.settled job r rep hrecon hjob hrep hfinal with hdone | hdone
    · simp [jobTerminal, hjob, hdone] at hterm
    · exact hopen hdone
  refine ⟨?_, ?_, ?_, ?_⟩
  · intro r c hrecon
    obtain ⟨rep, hrep, hopen⟩ := ht.target r c hrecon
    obtain ⟨rep', hrep'⟩ := replicationForJob_step a hrep
    refine ⟨rep', hrep', ?_⟩
    rcases hchanged r rep rep' hrep hrep' with heq | ⟨hnone, -⟩
    · rw [heq]; exact hopen
    · simp [hnone] at hrecon
  · intro job r rep' hjob hrep' hfinal
    rw [hget] at hjob
    obtain ⟨rep, hrep⟩ := replicationForJob_of_step hrep'
    rcases hchanged r rep rep' hrep hrep' with heq | ⟨hnone, hterm, hopen⟩
    · rw [heq]
      exact ht.final job r rep hjob hrep hfinal
    · exact absurd hfinal (hunfinished job r rep hjob hrep hnone hterm hopen)
  · intro job r rep' hnone hjob hrep' hfinal
    rw [hget] at hjob
    obtain ⟨rep, hrep⟩ := replicationForJob_of_step hrep'
    rcases hchanged r rep rep' hrep hrep' with heq | ⟨-, hterm, hopen⟩
    · rw [heq]
      exact ht.settled job r rep hnone hjob hrep hfinal
    · exact absurd hfinal (hunfinished job r rep hjob hrep hnone hterm hopen)
  · exact Rest.Consistent.preserved h hg ht.next

/-! ### When a transaction is consistent -/

lemma Sweep.next_consistent (db : Db) (sweep : Sweep) : sweep.next.Consistent db := by
  simp only [Sweep.next]
  split <;> trivial

lemma reconToJob_success_iff {c : ReconStatus} {m : JobStatus × Phase}
    (h : reconToJob c = some m) : m.1 = .success ↔ c = .partialReconciled := by
  cases c <;> simp only [reconToJob, Option.some.injEq, reduceCtorEq] at h <;> subst h <;> simp

/-- The bookkeeping of the status `c` leaves the job in agreement with the status `c'`, if a
finished job agreed with it before, and `c` finishes an open job in agreement with it. -/
lemma finalize_agrees {job : ExecutionJob} {c c' : ReconStatus} (now : Time)
    (hdone : job.status.isTerminal = true → (job.status = .success ↔ c' = .partialReconciled))
    (hopen : ¬ job.status.isTerminal = true → reconToJob c ≠ none →
      (c = .partialReconciled ↔ c' = .partialReconciled)) :
    (finalizeJobTerminal job (some c) now).status.isTerminal = true →
      ((finalizeJobTerminal job (some c) now).status = .success ↔ c' = .partialReconciled) := by
  rw [finalizeJobTerminal_status]
  split_ifs with hterm
  · exact hdone
  · rw [Option.bind_some]
    cases hm : reconToJob c with
    | none => exact fun h => absurd h hterm
    | some m =>
      intro _
      rw [Option.map_some, Option.getD_some, reconToJob_success_iff hm]
      exact hopen hterm (by simp [hm])

lemma Txn.consistent_of_silent {db : Db} {t : Txn} (hagrees : Agrees db t.jobId)
    (hrow : t.row = none) (hrecon : t.recon = none) (hnext : t.next.Consistent db) :
    t.Consistent db where
  target r c h := by simp [hrecon] at h
  final job r rep hjob hrep hterm := by
    rw [hrow, Option.getD_none] at hterm ⊢
    rw [hrecon, Option.map_none, Option.getD_none]
    exact hagrees job r rep hjob hrep hterm
  settled job r rep _ _ _ hterm := by
    rw [hrow, Option.getD_none] at hterm
    exact Or.inl hterm
  next := hnext

lemma Txn.consistent_of_open {db : Db} {t : Txn} {job' : ExecutionJob} (hrow : t.row = some job')
    (hterm : job'.status.isTerminal = false)
    (htarget : ∀ r c, t.recon = some (r, c) → ∃ rep, replicationForJob db t.jobId = some (r, rep) ∧
      rep.reconciliationStatus ∉ partialTerminalStates) (hnext : t.next.Consistent db) :
    t.Consistent db where
  target := htarget
  final job r rep _ _ h := by simp [hrow, hterm] at h
  settled job r rep _ _ _ h := by simp [hrow, hterm] at h
  next := hnext

lemma Txn.consistent_of_finalize {db : Db} {t : Txn} {job : ExecutionJob}
    {recon : Option ReconStatus} {now : Time} (hagrees : Agrees db t.jobId)
    (hjob : db.jobs.get t.jobId = some job)
    (hrow : t.row = some (finalizeJobTerminal job recon now)) (hrecon : t.recon = none)
    (hc : ∀ c r rep, recon = some c → replicationForJob db t.jobId = some (r, rep) →
      c = .partialReconcileUnavailable ∨ rep.reconciliationStatus ∈ partialTerminalStates ∧
        (¬ job.status.isTerminal = true →
          (c = .partialReconciled ↔ rep.reconciliationStatus = .partialReconciled)))
    (hnext : t.next.Consistent db) : t.Consistent db where
  target r c h := by simp [hrecon] at h
  final job₀ r rep _ hrep := by
    rw [hrow, Option.getD_some, hrecon, Option.map_none, Option.getD_none]
    have hdone := hagrees job r rep hjob hrep
    cases recon with
    | none => exact hdone
    | some c =>
      refine finalize_agrees now hdone (fun hopen hmapped => ?_)
      rcases hc c r rep rfl hrep with rfl | ⟨-, hiff⟩
      · exact absurd rfl hmapped
      · exact hiff hopen
  settled job₀ r rep _ hjob₀ hrep hterm := by
    obtain rfl : job = job₀ := Option.some.inj (hjob.symm.trans hjob₀)
    rw [hrow, Option.getD_some, finalizeJobTerminal_status] at hterm
    cases recon with
    | none => exact Or.inl (by simpa using hterm)
    | some c =>
      rcases hc c r rep rfl hrep with rfl | ⟨hsettled, -⟩
      · -- the unavailable status leaves the job as it is
        exact Or.inl (by simpa [reconToJob] using hterm)
      · exact Or.inr hsettled
  next := hnext

lemma Txn.consistent_of_record {db : Db} {t : Txn} {job job' : ExecutionJob} {c : ReconStatus}
    {now : Time} (hagrees : Agrees db t.jobId) (hjob : db.jobs.get t.jobId = some job)
    (hkeeps : KeepsStatus job job') (hrep : replicationForJob db t.jobId = some (r, rep))
    (hopen : rep.reconciliationStatus ∉ partialTerminalStates)
    (hrow : t.row = some (finalizeJobTerminal job' (some c) now)) (hrecon : t.recon = some (r, c))
    (hc : c ≠ .partialReconciled) (hnext : t.next.Consistent db) : t.Consistent db where
  target r' c' h := by
    rw [hrecon] at h
    cases h
    exact ⟨rep, hrep, hopen⟩
  final job₀ r' rep' _ _ := by
    rw [hrow, Option.getD_some, hrecon, Option.map_some, Option.getD_some]
    refine finalize_agrees now (fun hterm => ?_) (fun _ _ => Iff.rfl)
    -- a finished job over a status that is not terminal is not reconciled
    have hne : rep.reconciliationStatus ≠ .partialReconciled := by
      intro heq
      exact hopen (by rw [heq]; decide)
    rw [hkeeps.status] at hterm ⊢
    simp [hagrees job r rep hjob hrep hterm, hne, hc]
  settled job₀ r' rep' h := by simp [hrecon] at h
  next := hnext

/-! ### The transactions, one by one -/

section Bodies

variable {env : Env} {db : Db} {j : ℕ} {job : ExecutionJob}

/-- `_finalize_reconcile` is consistent: its status was found by its own read-back, or it hands
the job to the operator. -/
lemma finalizeReconcileBody_consistent (hagrees : Agrees db j)
    (hjob : db.jobs.get j = some job) {recon : Option ReconStatus} (reason : Option String)
    (now : Time)
    (hc : ∀ c, recon = some c → c = .partialOperatorReview ∨ FoundStatus db j c)
    (hguard : recon = some .partialOperatorReview → ¬ job.status.isTerminal = true →
      recorded db j ≠ some .partialReconciled) :
    (finalizeReconcileBody db recon reason now j job).Consistent db := by
  by_cases hreview : recon = some .partialOperatorReview ∧ ∃ r rep,
      replicationForJob db j = some (r, rep) ∧ rep.reconciliationStatus ∉ partialTerminalStates
  · -- the operator review is recorded over a status that is not terminal
    obtain ⟨rfl, r, rep, hrep, hopen⟩ := hreview
    refine Txn.consistent_of_record hagrees hjob ⟨rfl, rfl, rfl⟩ hrep hopen rfl ?_ (by simp) trivial
    simp [finalizeReconcileBody, hrep, hopen]
  · have hrecon : (finalizeReconcileBody db recon reason now j job).recon = none := by
      simp only [finalizeReconcileBody]
      cases hrep : replicationForJob db j with
      | none => rfl
      | some e =>
        refine if_neg fun h => hreview ⟨h.1, e.1, e.2, hrep, h.2⟩
    refine Txn.consistent_of_finalize hagrees hjob rfl hrecon ?_ trivial
    intro c r rep hsome hrep
    change replicationForJob db j = some (r, rep) at hrep
    subst hsome
    rcases hc c rfl with rfl | hun | ⟨hterm, hall⟩
    · refine Or.inr ⟨by_contra fun h => hreview ⟨rfl, r, rep, hrep, h⟩, fun hopen => ?_⟩
      have hne : rep.reconciliationStatus ≠ .partialReconciled := by
        intro heq
        exact hguard rfl hopen (by rw [recorded, hrep, Option.map_some, heq])
      simp [hne]
    · exact Or.inl hun
    · have heq := hall r rep hrep
      exact Or.inr ⟨by rw [heq]; exact hterm, fun _ => by rw [heq]⟩

lemma sweepFinalizeBody_consistent (hagrees : Agrees db j) (hjob : db.jobs.get j = some job)
    (sweep : Sweep) {recon : Option ReconStatus}
    (hc : ∀ c, recon = some c → FoundStatus db j c) :
    (sweepFinalizeBody sweep recon j job).Consistent db := by
  simp only [sweepFinalizeBody]
  split_ifs
  · refine Txn.consistent_of_finalize hagrees hjob rfl rfl ?_ (Sweep.next_consistent _ _)
    intro c r rep hsome hrep
    rcases hc c hsome with hun | ⟨hterm, hall⟩
    · exact Or.inl hun
    · have heq := hall r rep hrep
      exact Or.inr ⟨by rw [heq]; exact hterm, fun _ => by rw [heq]⟩
  · exact Txn.consistent_of_silent hagrees rfl rfl (Sweep.next_consistent _ _)

lemma sweepCaptureBody_consistent (hagrees : Agrees db j) (hjob : db.jobs.get j = some job)
    (sweep : Sweep) : (sweepCaptureBody env db sweep j job).Consistent db := by
  rcases sweepCaptureBody_cases env db j job sweep with
    heq | ⟨r, rep, hrep, ⟨hterm, heq⟩ | ⟨hopen, job', hkeeps, ⟨c, hc, heq⟩ | ⟨plan, heq, hplan⟩⟩⟩
  · rw [heq]
    exact Txn.consistent_of_silent hagrees rfl rfl (Sweep.next_consistent _ _)
  · rw [heq]
    refine Txn.consistent_of_finalize hagrees hjob rfl rfl ?_ (Sweep.next_consistent _ _)
    intro c r' rep' hsome hrep'
    cases hsome
    rw [hrep] at hrep'
    cases hrep'
    exact Or.inr ⟨hterm, fun _ => Iff.rfl⟩
  · rw [heq]
    refine Txn.consistent_of_record hagrees hjob hkeeps hrep hopen rfl rfl ?_
      (Sweep.next_consistent _ _)
    rcases hc with rfl | rfl <;> simp
  · rw [heq]
    obtain ⟨rfl, rfl⟩ := hplan
    -- the attempt is recorded, and the job goes on as it was
    refine ⟨by simp, ?_, ?_, rep, hrep⟩
    · intro job₀ r' rep' _ hrep'
      simp only [Option.getD_some, Option.map_none, Option.getD_none, hkeeps.status]
      exact hagrees job r' rep' hjob hrep'
    · intro job₀ r' rep' _ hjob₀ _ hterm'
      obtain rfl : job = job₀ := Option.some.inj (hjob.symm.trans hjob₀)
      simp only [Option.getD_some, hkeeps.status] at hterm'
      exact Or.inl hterm'

lemma body_consistent (hagrees : Agrees db j) (hjob : db.jobs.get j = some job) (hex : String)
    {c : Call} (hcall : c.Consistent db) (hnames : c.names j)
    (hguard : ∀ i reason now, c = .finalizeReconcile i (some .partialOperatorReview) reason now →
      ¬ job.status.isTerminal = true → recorded db j ≠ some .partialReconciled) :
    (body env db hex j job c).Consistent db := by
  cases c with
  | claim w accountId nodeIds =>
    simp only [body]
    rcases claimBody_cases env db w j job accountId nodeIds hex with
      hsilent | ⟨r, rep, job', heq, hrep, -, hfresh, -, hrunning⟩
    · exact Txn.consistent_of_silent (by rwa [claimBody_jobId]) hsilent.row hsilent.recon
        (by rw [hsilent.next]; trivial)
    · rw [heq]
      refine Txn.consistent_of_open rfl (by rw [hrunning]; rfl) ?_ trivial
      rintro r' c' h
      cases h
      exact ⟨rep, hrep, fun h => hfresh (mem_partialDispatchMarkers_of_terminal h)⟩
  | authorizeSend w k token accountId nodeIds =>
    simp only [body]
    rcases authorizeBody_cases env db w j job token accountId nodeIds hex with
      hsilent | ⟨i, job', heq, -, hrunning, -, -, -, -, hstatus, -⟩
    · exact Txn.consistent_of_silent (by rwa [authorizeBody_jobId]) hsilent.row hsilent.recon
        (by rw [hsilent.next]; trivial)
    · rw [heq]
      exact Txn.consistent_of_open rfl (by rw [hstatus, hrunning]; rfl) (by simp) trivial
  | complete w k token bridge nonce now =>
    simp only [body]
    rcases completeBody_cases env db w j job token bridge nonce now with
      hsilent | ⟨r, rep, job', hrep, hopen, hterm, hrefused | ⟨c, plan, heq, hkeeps, -, hplan⟩⟩
    · exact Txn.consistent_of_silent (by rwa [completeBody_jobId]) hsilent.row hsilent.recon
        (by rw [hsilent.next]; trivial)
    · obtain ⟨heq, hfailed, -, -⟩ := hrefused
      rw [heq]
      refine ⟨?_, ?_, by simp, trivial⟩
      · rintro r' c' h
        cases h
        exact ⟨rep, hrep, hopen⟩
      · intro job₀ r' rep' _ _ _
        simp [hfailed]
    · rw [heq]
      obtain ⟨rfl, rfl⟩ := hplan
      refine Txn.consistent_of_open rfl (by rw [hkeeps.status]; exact hterm) ?_ ⟨rep, hrep⟩
      rintro r' c' h
      cases h
      exact ⟨rep, hrep, hopen⟩
  | finalizeReconcile i recon reason now =>
    obtain rfl : i = j := hnames
    refine finalizeReconcileBody_consistent hagrees hjob reason now ?_ ?_
    · rintro c rfl
      exact hcall
    · rintro rfl
      exact hguard i reason now rfl
  | sweepCapture sweep i => exact sweepCaptureBody_consistent hagrees hjob sweep
  | sweepFinalize sweep i recon =>
    obtain rfl : i = j := hnames
    refine sweepFinalizeBody_consistent hagrees hjob sweep ?_
    rintro c rfl
    exact hcall

end Bodies

/-! ### Every guarded step keeps the invariant -/

lemma start_consistent (env : Env) (db : Db) (request : Request) :
    (start env db request).1.Consistent db := by
  cases request with
  | claimPartialClose w accountId hostnames =>
    simp only [start]
    split
    · trivial
    · cases accountId <;> split_ifs <;> trivial
  | authorizeSend w jobId token accountId hostnames =>
    simp only [start]
    split <;> trivial
  | completePartialClose w jobId token bridge nonce =>
    simp only [start]
    split <;> trivial
  | sweepPartialCloseReconcile now limit =>
    simp only [start]
    split_ifs
    · trivial
    · exact Sweep.next_consistent db _

lemma acquireJob_next {db : Db} {locks : ℕ → Option ℕ} {j : ℕ} {reply reply' : Option Reply}
    {next next' : Rest} (h : acquireJob db locks j reply next = .missing reply' next') :
    next' = next := by
  simp only [acquireJob] at h
  split at h
  · cases h; rfl
  · split_ifs at h
    cases h; rfl

lemma acquire_next_consistent {db : Db} {locks : ℕ → Option ℕ} {choice : ℕ} {c : Call}
    {reply : Option Reply} {next : Rest} (h : acquire db locks choice c = .missing reply next) :
    next.Consistent db := by
  cases c with
  | claim w accountId nodeIds =>
    simp only [acquire] at h
    split_ifs at h
    cases h
    trivial
  | authorizeSend w k token accountId nodeIds => rw [acquireJob_next h]; trivial
  | complete w k token bridge nonce now => rw [acquireJob_next h]; trivial
  | finalizeReconcile k recon reason now => rw [acquireJob_next h]; trivial
  | sweepCapture sweep k =>
    simp only [acquire] at h
    split at h
    · cases h
      exact Sweep.next_consistent db sweep
    · split_ifs at h
      cases h
      exact Sweep.next_consistent db sweep
  | sweepFinalize sweep k recon =>
    rw [acquireJob_next h]
    exact Sweep.next_consistent db sweep

lemma acquire_names {db : Db} {locks : ℕ → Option ℕ} {choice j : ℕ} {c : Call}
    (h : acquire db locks choice c = .row j) : c.names j := by
  cases c with
  | finalizeReconcile k recon reason now => exact (acquireJob_free h).2
  | sweepFinalize sweep k recon => exact (acquireJob_free h).2
  | _ => trivial

lemma foundStatus_of_readBack {result : MasterReadResult} {plan : ReadPlan} {reader : Reader}
    {c : ReconStatus} (hpc : s.pc p = .rest (.readBack plan reader))
    (hrep : ∃ rep, replicationForJob s.db plan.jobId = some (plan.replicationId, rep))
    (hstatus : partialCloseStatus plan.followerTicket plan.intendedRemaining plan.step result
      = some c) : FoundStatus (step s (.readBack p result)).db plan.jobId c := by
  obtain ⟨rep, hrep⟩ := hrep
  have hwritten : (step s (.readBack p result)).db.replications =
      s.db.replications.modify plan.replicationId (withStatus c) := by
    simp only [step, hpc, hstatus]
    rfl
  have hset : ∀ r rep', replicationForJob (step s (.readBack p result)).db plan.jobId
      = some (r, rep') → rep'.reconciliationStatus = c := by
    intro r rep' h
    rw [replicationForJob_of_modify hwritten, hrep, Option.map_some, if_pos rfl] at h
    cases h
    rfl
  rcases partialCloseStatus_cases hstatus with rfl | rfl | rfl | rfl
  · exact Or.inl rfl
  · exact Or.inr ⟨by decide, hset⟩
  · exact Or.inr ⟨by decide, hset⟩
  · exact Or.inr ⟨by decide, hset⟩

lemma rest_consistent_of_step {a : Action} (h : AgreementInv s) (hg : guarded s a = true)
    {r : Rest} (hpc' : (step s a).pc p = .rest r) : r.Consistent (step s a).db := by
  have hmove := step_move s a p
  rw [hpc'] at hmove
  generalize hplace : Pc.rest r = place at hmove
  cases hmove with
  | stay => exact Rest.Consistent.preserved h hg (h.rest p r hplace.symm)
  | call request hpc =>
    cases hplace
    exact Rest.Consistent.preserved h hg (start_consistent s.env s.db request)
  | missing choice c reply next hpc hacq =>
    cases hplace
    exact Rest.Consistent.preserved h hg (acquire_next_consistent hacq)
  | commit t hpc =>
    cases hplace
    exact Rest.Consistent.preserved h hg (h.commit p t hpc).next
  | route plan hpc =>
    cases hplace
    refine Rest.Consistent.preserved h hg ?_
    have hrep := h.rest p _ hpc
    simp only [completeRoute]
    split_ifs
    · exact Or.inl rfl
    · split
      · exact Or.inl rfl
      · exact hrep
  | readBack result plan reader recon hpc hrecon =>
    cases hplace
    cases recon with
    | none =>
      cases reader with
      | complete => trivial
      | sweep sweep =>
        simp only [afterReadBack, reduceCtorEq, if_false]
        trivial
    | some c =>
      have hfound := foundStatus_of_readBack hpc (h.rest p _ hpc) hrecon
      cases reader with
      | complete => exact Or.inr hfound
      | sweep sweep =>
        simp only [afterReadBack]
        split_ifs
        · exact Sweep.next_consistent _ _
        · exact hfound
  | abort =>
    cases hplace
    trivial
  | _ => cases hplace

lemma agrees_of_step {a : Action} (h : AgreementInv s) (hg : guarded s a = true) (j : ℕ) :
    Agrees (step s a).db j := by
  intro job' r rep' hjob' hrep' hterm'
  obtain ⟨rep, hrep⟩ := replicationForJob_of_step hrep'
  -- a step that changes neither the status of the job nor the recorded one keeps the agreement
  have hsame : ∀ job, s.db.jobs.get j = some job → job'.status = job.status →
      rep'.reconciliationStatus = rep.reconciliationStatus →
      (job'.status = .success ↔ rep'.reconciliationStatus = .partialReconciled) := by
    intro job hjob hstatus hrecon
    rw [hstatus] at hterm' ⊢
    rw [hrecon]
    exact h.agrees j job r rep hjob hrep hterm'
  have hrecorded := recorded_step a hrep hrep'
  have heffect := step_effect s a
  generalize step s a = s' at heffect hjob' hrep'
  have hidle : s'.db = s.db →
      (job'.status = .success ↔ rep'.reconciliationStatus = .partialReconciled) := by
    intro hdb
    rw [hdb] at hjob' hrep'
    rw [hrep] at hrep'
    cases hrep'
    exact hsame job' hjob' rfl rfl
  cases heffect with
  | flipPhase k phase hfree =>
    have hrecon : rep'.reconciliationStatus = rep.reconciliationStatus := by
      rcases hrecorded with heq | hwrite
      · exact heq
      · cases hwrite
    simp only [Db.setPhase, Table.get_modify] at hjob'
    split_ifs at hjob' with hjk
    · obtain ⟨job, hjob, rfl⟩ := Option.map_eq_some_iff.mp hjob'
      exact hsame job (hjk ▸ hjob) rfl hrecon
    · exact hsame job' hjob' rfl hrecon
  | commit p t hpc =>
    by_cases hjt : j = t.jobId
    · -- the locked job: the commit is consistent
      subst hjt
      have ht := h.commit p t hpc
      rw [get_apply_jobs, if_pos rfl] at hjob'
      obtain ⟨job, hjob, rfl⟩ := Option.map_eq_some_iff.mp hjob'
      have hvalue : rep'.reconciliationStatus
          = (t.recon.map Prod.snd).getD rep.reconciliationStatus := by
        cases hrecon : t.recon with
        | none =>
          have hkept : replicationForJob (s.db.apply t) t.jobId
              = replicationForJob s.db t.jobId := by
            simp [replicationForJob, Db.apply, hrecon]
          have hboth := hkept.symm.trans hrep'
          rw [hrep] at hboth
          cases hboth
          rfl
        | some e =>
          obtain ⟨r', c⟩ := e
          obtain ⟨rep₀, hrep₀, -⟩ := ht.target r' c hrecon
          rw [hrep] at hrep₀
          cases hrep₀
          have hwritten : (s.db.apply t).replications =
              s.db.replications.modify r (withStatus c) := by
            simp only [Db.apply, hrecon]
            rfl
          have hboth := (replicationForJob_of_modify hwritten t.jobId).symm.trans hrep'
          rw [hrep, Option.map_some, if_pos rfl] at hboth
          cases hboth
          rfl
      rw [hvalue]
      exact ht.final job r rep hjob hrep hterm'
    · -- another job: neither its row nor its replication is written
      have hjob : s.db.jobs.get j = some job' := by
        rw [get_apply_jobs, if_neg hjt] at hjob'
        exact hjob'
      rcases hrecorded with heq | hwrite
      · exact hsame job' hjob rfl heq
      · cases hwrite with
        | commit _ t' hpc' hrecon =>
          rw [hpc] at hpc'
          cases hpc'
          obtain ⟨rep₀, hrep₀, -⟩ := (h.commit p t hpc).target _ _ hrecon
          exact absurd (job_unique hrep hrep₀) hjt
  | readBack p result plan reader recon hpc hrecon =>
    have hjob : s.db.jobs.get j = some job' := by simpa using hjob'
    rcases hrecorded with heq | hwrite
    · exact hsame job' hjob rfl heq
    · -- the job of a guarded read-back is not finished
      cases hwrite with
      | readBack _ _ plan' reader' hpc' hr hstatus =>
        rw [hpc] at hpc'
        cases hpc'
        subst hr
        obtain ⟨rep₀, hrep₀⟩ := h.rest p _ hpc
        obtain rfl : j = plan.jobId := job_unique hrep hrep₀
        have hopen := (guarded_readBack hpc hg).1
        simp [jobTerminal, hjob, hterm'] at hopen
  | _ => exact hidle rfl

/-- **Every guarded step keeps the invariant.** -/
theorem agreementInv_step (s : State) (a : Action) (h : AgreementInv s) (hg : guarded s a = true) :
    AgreementInv (step s a) where
  locks := locksHeld_step s a h.locks
  agrees := agrees_of_step h hg
  rest p r hpc := rest_consistent_of_step h hg hpc
  locked p c j hpc := by
    rcases pc_locked_inv hpc with hold | ⟨choice, rfl, hready, hacq⟩
    · obtain ⟨hc, hnames⟩ := h.locked p c j hold
      exact ⟨Call.Consistent.preserved h hg hc, hnames⟩
    · exact ⟨Call.Consistent.preserved h hg (h.rest p _ hready), acquire_names hacq⟩
  commit p t hpc := by
    rcases pc_commit_inv hpc with hold | ⟨hex, c, j, job, rfl, hlocked, hjob, rfl⟩
    · exact Txn.Consistent.preserved h hg hold hpc
    · obtain ⟨hc, hnames⟩ := h.locked p c j hlocked
      rw [step_body_db]
      refine body_consistent (h.agrees j) hjob hex hc hnames ?_
      rintro i reason now rfl hopen
      rcases guarded_body hlocked hg with hterm | hne
      · exact absurd (by simpa [jobTerminal, hjob] using hterm) hopen
      · exact hne

lemma agreementInv_init {db : Db} (env : Env) (h : ∀ j, Agrees db j) :
    AgreementInv (init db env) where
  locks := locksHeld_init db env
  agrees := h
  rest p r hpc := by
    cases hpc
    trivial
  locked p c j hpc := by cases hpc
  commit p t hpc := by cases hpc

/-! ### Whole runs -/

/-- Between two states, the replications keep their terminal statuses. -/
def TerminalKept (s s' : State) : Prop :=
  ∀ r rep, s.db.replications.get r = some rep →
    rep.reconciliationStatus ∈ partialTerminalStates → s'.db.replications.get r = some rep

instance : Std.Refl TerminalKept := ⟨fun _ _ _ hget _ => hget⟩

instance : IsTrans State TerminalKept where
  trans _ _ _ h₁ h₂ r rep hget hterm := h₂ r rep (h₁ r rep hget hterm) hterm

/-- **Terminal statuses are absorbing and agree with their jobs, in every guarded run.**  In a
run from a database in which the finished jobs agree (as they do when no job has been finished
yet), and whose steps are all guarded, a terminal reconciliation status never changes again, and
in every state of the run a finished job is `SUCCESS` if and only if its replication is
reconciled. -/
theorem reconciliation_absorbing_of_guarded {db : Db} {env : Env} {as : List Action}
    (hstart : ∀ j, Agrees db j)
    (hguarded : StepsMeet step (fun s a => guarded s a = true) (init db env) as) :
    (∀ pre r rep, pre <+: as →
      (run step (init db env) pre).db.replications.get r = some rep →
      rep.reconciliationStatus ∈ partialTerminalStates →
      (run step (init db env) as).db.replications.get r = some rep) ∧
    ∀ pre j, pre <+: as → Agrees (run step (init db env) pre).db j := by
  have hinv : ∀ pre, pre <+: as → AgreementInv (run step (init db env) pre) := by
    rintro pre ⟨post, rfl⟩
    exact run_invariant_of_meets agreementInv_step (agreementInv_init env hstart)
      (stepsMeet_append.mp hguarded).1
  refine ⟨?_, fun pre j hpre => (hinv pre hpre).agrees j⟩
  intro pre r rep hpre hget hterm
  have hpreinv := hinv pre hpre
  obtain ⟨post, rfl⟩ := hpre
  have hkept : TerminalKept (run step (init db env) pre)
      (run step (run step (init db env) pre) post) :=
    run_rel_of_meets agreementInv_step
      (fun s a h hg r rep hget hterm => terminal_stays h hg hget hterm) hpreinv
      (stepsMeet_append.mp hguarded).2
  rw [run_append]
  exact hkept r rep hget hterm

/-! ### A run with a late read-back -/

/-- A pending partial close on a demo account. -/
def demoJob : ExecutionJob where
  jobType := .partialCloseTrade
  accountId := 7
  terminalNodeId := some 1
  expectedRemaining := some (1 / 2)
  status := .pending
  workerId := ""
  result := {}
  errorMessage := ""
  createdAt := 0
  startedAt := none
  finishedAt := none
  leaseExpiresAt := none

def demoReplication : CopierReplication where
  executionJobId := some 1
  requestedOp := .partialClose
  status := .executionRequested
  reconciliationStatus := .blank
  followerId := 3
  followerTicket := some 900
  followerSymbol := "EURUSD"
  targetVolume := some (1 / 2)

def demoDb : Db := ⟨⟨[(1, demoJob)], by decide⟩, ⟨[(5, demoReplication)], by decide⟩⟩

/-- Its environment at the time `now`: everything armed, one active node, a demo account. -/
def demoEnv (now : Time) : Env where
  flags := allOn
  now := now
  nodes := [⟨1, "node", .active⟩]
  followers := fun _ => ⟨true, 7⟩
  accounts := fun _ => ⟨1, "100", some ⟨"Demo", .demo⟩, "", true, true, some 1⟩
  constraints := fun _ _ => ⟨1 / 100, true⟩
  sweepGraceSeconds := 300
  sweepMaxReconAttempts := 12

def demoWorker : WorkerIdentity := ⟨"w", true, false⟩

def demoRead (volume : ℚ) : MasterReadResult :=
  { ok := true, reason := "ok", readAt := none
    positions := [{ ticket := 900, symbol := "EURUSD", side := "BUY", volume, sl := none,
                    tp := none, comment := "" }] }

/-- Session 0 claims the job and is authorized to send. -/
def demoSend : List Action :=
  [.call 0 (.claimPartialClose (some demoWorker) (some 7) ["node"]), .lock 0 1,
    .body 0 ⟨"token", by decide⟩, .commit 0,
    .call 0 (.authorizeSend (some demoWorker) 1 "token" 7 ["node"]), .lock 0 1,
    .body 0 ⟨"nonce", by decide⟩, .commit 0]

/-- Session 0 reports the send, and the position is read back with the intended volume. -/
def demoComplete : List Action :=
  [.call 0 (.completePartialClose (some demoWorker) 1 "token" ⟨true, true, none⟩ (some "nonce")),
    .lock 0 1, .body 0 ⟨"x", by decide⟩, .commit 0, .route 0, .readBack 0 (demoRead (1 / 2)),
    .lock 0 1, .body 0 ⟨"x", by decide⟩, .commit 0]

/-- Session 1 sweeps the job after its lease, up to its read-back. -/
def demoSweep : List Action :=
  [.env (demoEnv 1000), .call 1 (.sweepPartialCloseReconcile none 200), .lock 1 1,
    .body 1 ⟨"x", by decide⟩, .commit 1]

lemma demoDb_agrees (j : ℕ) : Agrees demoDb j := by
  intro job r rep hjob _ hterm
  -- the one job of the database is pending
  have hmem : (j, job) ∈ [(1, demoJob)] := Table.mem_rows_of_get hjob
  obtain ⟨-, rfl⟩ := Prod.mk.inj (List.mem_singleton.mp hmem)
  cases hterm

lemma not_agrees_of_success {db : Db} {j : ℕ} {c : ReconStatus}
    (hjob : (db.jobs.get j).map (·.status) = some .success) (hrecorded : recorded db j = some c)
    (hc : c ≠ .partialReconciled) : ¬ Agrees db j := by
  obtain ⟨job, hget, hstatus⟩ := Option.map_eq_some_iff.mp hjob
  obtain ⟨⟨r, rep⟩, hrep, rfl⟩ := Option.map_eq_some_iff.mp hrecorded
  intro hagrees
  exact hc ((hagrees job r rep hget hrep (by rw [hstatus]; rfl)).mp hstatus)

/-- A claim, an authorization and a completion without any other session are a guarded run. -/
theorem reconciliation_absorbing_of_guarded_demo :
    Agrees (run step (init demoDb (demoEnv 0)) (demoSend ++ demoComplete)).db 1 :=
  (reconciliation_absorbing_of_guarded demoDb_agrees (by decide +kernel)).2
    (demoSend ++ demoComplete) 1 (List.prefix_refl _)

/-- **The late read-back.**  The sweep has planned its read-back, the late completion of the
worker reconciles the replication and finishes the job, and then the read-back of the sweep, of
a volume it read at another time, is recorded over the terminal status: the terminal status has
changed, and the job is `SUCCESS` while its replication is divergent. -/
theorem late_readBack_overwrites :
    (∀ j, Agrees demoDb j) ∧
    recorded (run step (init demoDb (demoEnv 0)) (demoSend ++ demoSweep ++ demoComplete)).db 1
      = some .partialReconciled ∧
    recorded (run step (init demoDb (demoEnv 0))
      (demoSend ++ demoSweep ++ demoComplete ++ [.readBack 1 (demoRead 1)])).db 1
      = some .partialDivergentVolume ∧
    ¬ Agrees (run step (init demoDb (demoEnv 0))
      (demoSend ++ demoSweep ++ demoComplete ++ [.readBack 1 (demoRead 1)])).db 1 :=
  ⟨demoDb_agrees, by decide +kernel, by decide +kernel,
    not_agrees_of_success (by decide +kernel)
      (show _ = some ReconStatus.partialDivergentVolume by decide +kernel) (by decide)⟩

end Consumer
end GuvFX
