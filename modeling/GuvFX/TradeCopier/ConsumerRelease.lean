/-
# A partial close is released at most once

The mutation instruction of a job is handed out by `authorize_send` alone.  The invariant that
carries the result links the answers given so far with the row of the job: once an instruction
was handed out, the job has left `PENDING` for good and carries a send nonce, and no transaction
hands out an instruction for a job that carries one.  Neither the feature flags nor the recorded
phase take part in it, so both may change at any time.
-/
import GuvFX.TradeCopier.ConsumerSystem

namespace GuvFX
namespace Consumer

open Checks Flags Reconcile Runs

/-! ### What a transaction may do to its job -/

/-- The changes of a job row that the consumer makes: the type stays, `PENDING` is not returned
to, a terminal status is not left, and a send nonce is kept. -/
structure JobStep (job job' : ExecutionJob) : Prop where
  jobType : job'.jobType = job.jobType
  pending : job.status ≠ .pending → job'.status ≠ .pending
  terminal : job.status.isTerminal → job'.status = job.status
  nonce : job.status ≠ .pending → job.result.hasNonce → job'.result.hasNonce

lemma JobStep.refl (job : ExecutionJob) : JobStep job job :=
  ⟨rfl, id, fun _ => rfl, fun _ => id⟩

lemma JobStep.trans {job₁ job₂ job₃ : ExecutionJob} (h₁ : JobStep job₁ job₂)
    (h₂ : JobStep job₂ job₃) : JobStep job₁ job₃ where
  jobType := h₂.jobType.trans h₁.jobType
  pending hp := h₂.pending (h₁.pending hp)
  terminal ht := by
    have h12 := h₁.terminal ht
    exact (h₂.terminal (by rw [h12]; exact ht)).trans h12
  nonce hp hn := h₂.nonce (h₁.pending hp) (h₁.nonce hp hn)

lemma not_pending_of_terminal {c : JobStatus} (h : c.isTerminal = true) : c ≠ .pending := by
  rintro rfl
  cases h

lemma jobStep_finalizeJobTerminal (job : ExecutionJob) (recon : Option ReconStatus) (now : Time) :
    JobStep job (finalizeJobTerminal job recon now) where
  jobType := finalizeJobTerminal_jobType job recon now
  pending hp := by
    rw [finalizeJobTerminal_status]
    split_ifs
    · exact hp
    · cases hm : recon.bind reconToJob with
      | none => exact hp
      | some m =>
        obtain ⟨c, -, hc⟩ := Option.bind_eq_some_iff.mp hm
        exact not_pending_of_terminal (reconToJob_terminal hc)
  terminal ht := by rw [finalizeJobTerminal_status, if_pos ht]
  nonce _ hn := by
    rw [JobResult.hasNonce, finalizeJobTerminal_sendNonce]
    exact hn

/-- What is known of a transaction that is about to commit. -/
structure Txn.Sound (db : Db) (t : Txn) : Prop where
  row : ∀ job', t.row = some job' → ∃ job, db.jobs.get t.jobId = some job ∧ JobStep job job'
  release : ∀ i, t.reply = some (.instruction i) → i.jobId = t.jobId ∧
    ∃ job job', db.jobs.get t.jobId = some job ∧ t.row = some job' ∧ job.status = .running ∧
      job.result.hasNonce = false ∧ job'.result.hasNonce = true

variable {db : Db}

lemma Txn.Sound.frame {db' : Db} {t : Txn} (h : t.Sound db)
    (hget : db'.jobs.get t.jobId = db.jobs.get t.jobId) : t.Sound db' := by
  refine ⟨?_, ?_⟩
  · rw [hget]; exact h.row
  · rw [hget]; exact h.release

lemma Txn.sound_of_jobStep {t : Txn} {job : ExecutionJob} (hjob : db.jobs.get t.jobId = some job)
    (hrow : ∀ job', t.row = some job' → JobStep job job')
    (hreply : ∀ i, t.reply ≠ some (.instruction i)) : t.Sound db where
  row job' hjob' := ⟨job, hjob, hrow job' hjob'⟩
  release i hi := absurd hi (hreply i)

/-! ### The transactions, one by one -/

lemma KeepsStatus.jobStep {job job' : ExecutionJob} (h : KeepsStatus job job') :
    JobStep job job' where
  jobType := h.jobType
  pending hp := by rw [h.status]; exact hp
  terminal _ := h.status
  nonce _ hn := by
    rw [JobResult.hasNonce, h.sendNonce]
    exact hn

lemma Txn.Silent.sound {t : Txn} (h : t.Silent) : t.Sound db where
  row job' hrow := by simp [h.row] at hrow
  release i hi := absurd hi (h.reply i)

lemma Sweep.reply_ne_instruction (sweep : Sweep) (i : Instruction) :
    sweep.reply ≠ some (.instruction i) := by
  simp only [Sweep.reply]
  split <;> simp

lemma body_sound (env : Env) {hex : String} (hhex : hex ≠ "") {j : ℕ} {job : ExecutionJob}
    (hjob : db.jobs.get j = some job) (c : Call) : (body env db hex j job c).Sound db := by
  cases c with
  | claim w accountId nodeIds =>
    simp only [body]
    rcases claimBody_cases env db w j job accountId nodeIds hex with
      hsilent | ⟨r, rep, job', heq, -, hpending, -, htype, hrunning⟩
    · exact hsilent.sound
    · rw [heq]
      refine Txn.sound_of_jobStep hjob ?_ (by simp)
      rintro job'' hrow
      cases hrow
      -- the job was `PENDING`: only the type has to be kept
      exact ⟨htype, fun h => absurd hpending h,
        fun h => absurd hpending (not_pending_of_terminal h), fun h => absurd hpending h⟩
  | authorizeSend w i token accountId nodeIds =>
    simp only [body]
    rcases authorizeBody_cases env db w j job token accountId nodeIds hex with
      hsilent | ⟨i, job', heq, hi, hrunning, hfresh, -, -, htype, hstatus, hnonce⟩
    · exact hsilent.sound
    · rw [heq]
      have hset : job'.result.hasNonce = true := by
        simpa [JobResult.hasNonce, hnonce] using hhex
      refine ⟨?_, ?_⟩
      · rintro job'' hrow
        cases hrow
        exact ⟨job, hjob, htype, fun h => by rw [hstatus]; exact h, fun _ => hstatus,
          fun _ _ => hset⟩
      · rintro i' hi'
        cases hi'
        exact ⟨hi, job, job', hjob, rfl, hrunning, hfresh, hset⟩
  | complete w i token bridge nonce now =>
    simp only [body]
    rcases completeBody_cases env db w j job token bridge nonce now with
      hsilent | ⟨r, rep, job', -, -, hterm, hrefused | ⟨c, plan, heq, hkeeps, -⟩⟩
    · exact hsilent.sound
    · obtain ⟨heq, hfailed, htype, hnonce⟩ := hrefused
      rw [heq]
      refine Txn.sound_of_jobStep hjob ?_ (by simp)
      rintro job'' hrow
      cases hrow
      exact ⟨htype, fun _ => by simp [hfailed], fun h => by simp [hterm] at h,
        fun _ hn => by rw [JobResult.hasNonce, hnonce]; exact hn⟩
    · rw [heq]
      refine Txn.sound_of_jobStep hjob ?_ (by simp)
      rintro job'' hrow
      cases hrow
      exact hkeeps.jobStep
  | finalizeReconcile i recon reason now =>
    refine Txn.sound_of_jobStep hjob ?_ (by simp [body, finalizeReconcileBody])
    rintro job' hrow
    cases hrow
    exact jobStep_finalizeJobTerminal job recon now
  | sweepCapture sweep i =>
    simp only [body]
    rcases sweepCaptureBody_cases env db j job sweep with
      heq | ⟨r, rep, -, ⟨-, heq⟩ | ⟨-, job', hkeeps, ⟨c, -, heq⟩ | ⟨plan, heq, -⟩⟩⟩
    · rw [heq]
      exact Txn.sound_of_jobStep hjob (by simp) sweep.reply_ne_instruction
    · rw [heq]
      refine Txn.sound_of_jobStep hjob ?_ (Sweep.reply_ne_instruction _)
      rintro job'' hrow
      cases hrow
      exact jobStep_finalizeJobTerminal job _ _
    · rw [heq]
      refine Txn.sound_of_jobStep hjob ?_ (Sweep.reply_ne_instruction _)
      rintro job'' hrow
      cases hrow
      exact hkeeps.jobStep.trans (jobStep_finalizeJobTerminal job' _ _)
    · rw [heq]
      refine Txn.sound_of_jobStep hjob ?_ (by simp)
      rintro job'' hrow
      cases hrow
      exact hkeeps.jobStep
  | sweepFinalize sweep i recon =>
    simp only [body, sweepFinalizeBody]
    split_ifs with hrunning
    · refine Txn.sound_of_jobStep hjob ?_ (Sweep.reply_ne_instruction _)
      rintro job' hrow
      cases hrow
      exact jobStep_finalizeJobTerminal job recon _
    · exact Txn.sound_of_jobStep hjob (by simp) sweep.reply_ne_instruction

lemma authorized_of_body_instruction {env : Env} {hex : String} {j : ℕ} {job : ExecutionJob}
    {c : Call} {i : Instruction} (h : (body env db hex j job c).reply = some (.instruction i)) :
    (∃ w k token accountId nodeIds, c = .authorizeSend w k token accountId nodeIds) ∧
      job.status = .running ∧ job.result.phase = some .dispatched ∧
      flagsOk env.flags = true := by
  cases c with
  | authorizeSend w k token accountId nodeIds =>
    simp only [body] at h
    rcases authorizeBody_cases env db w j job token accountId nodeIds hex with
      hsilent | ⟨i', job', -, -, hrunning, -, hphase, hflags, -⟩
    · exact absurd h (hsilent.reply i)
    · exact ⟨⟨w, k, token, accountId, nodeIds, rfl⟩, hrunning, hphase, hflags⟩
  | claim w accountId nodeIds =>
    simp only [body] at h
    rcases claimBody_cases env db w j job accountId nodeIds hex with
      hsilent | ⟨r, rep, job', heq, -⟩
    · exact absurd h (hsilent.reply i)
    · simp [heq] at h
  | complete w k token bridge nonce now =>
    simp only [body] at h
    rcases completeBody_cases env db w j job token bridge nonce now with
      hsilent | ⟨r, rep, job', -, -, -, ⟨heq, -⟩ | ⟨c, plan, heq, -⟩⟩
    · exact absurd h (hsilent.reply i)
    · simp [heq] at h
    · simp [heq] at h
  | finalizeReconcile k recon reason now => simp [body, finalizeReconcileBody] at h
  | sweepCapture sweep k =>
    simp only [body] at h
    rcases sweepCaptureBody_cases env db j job sweep with
      heq | ⟨r, rep, -, ⟨-, heq⟩ | ⟨-, job', -, ⟨c, -, heq⟩ | ⟨plan, heq, -⟩⟩⟩
    · exact absurd h (by rw [heq]; exact sweep.reply_ne_instruction i)
    · exact absurd h (by rw [heq]; exact Sweep.reply_ne_instruction _ i)
    · exact absurd h (by rw [heq]; exact Sweep.reply_ne_instruction _ i)
    · simp [heq] at h
  | sweepFinalize sweep k recon =>
    simp only [body, sweepFinalizeBody] at h
    split_ifs at h
    · exact absurd h (Sweep.reply_ne_instruction _ i)
    · exact absurd h (sweep.reply_ne_instruction i)

/-! ### Counting the releases -/

/-- Is this answer the mutation instruction of the job `j`? -/
def Reply.releases (j : ℕ) : Reply → Bool
  | .instruction i => i.jobId = j
  | _ => false

/-- How often the mutation instruction of the job `j` has been handed out. -/
def releases (s : State) (j : ℕ) : ℕ := s.replies.countP fun e => e.2.releases j

lemma Reply.releases_eq_true {j : ℕ} {reply : Reply} (h : reply.releases j = true) :
    ∃ i, reply = .instruction i ∧ i.jobId = j := by
  cases reply with
  | instruction i => exact ⟨i, rfl, of_decide_eq_true h⟩
  | _ => cases h

lemma releases_goto (s : State) (p : ℕ) (pc : Pc) (reply : Option Reply) (j : ℕ) :
    releases (s.goto p pc reply) j = releases s j + if reply.any (·.releases j) then 1 else 0 := by
  cases reply with
  | none => simp [releases, State.goto]
  | some r => simp [releases, State.goto, List.countP_cons]

lemma releases_goto_of_ne (s : State) (p : ℕ) (pc : Pc) {reply : Option Reply} (j : ℕ)
    (h : ∀ i, reply ≠ some (.instruction i)) : releases (s.goto p pc reply) j = releases s j := by
  rw [releases_goto, if_neg, add_zero]
  intro hany
  obtain ⟨r, rfl, hr⟩ := (Option.any_eq_true_iff_get _ _).mp hany |>.elim fun hs hr =>
    (⟨reply.get hs, (Option.some_get hs).symm, hr⟩ : ∃ r, reply = some r ∧ r.releases j = true)
  obtain ⟨i, rfl, -⟩ := Reply.releases_eq_true hr
  exact h i rfl

lemma start_reply_ne (env : Env) (db : Db) (request : Request) (i : Instruction) :
    (start env db request).2 ≠ some (.instruction i) := by
  cases request with
  | claimPartialClose w accountId hostnames =>
    simp only [start]
    split
    · simp
    · cases accountId <;> split_ifs <;> simp
  | authorizeSend w jobId token accountId hostnames =>
    simp only [start]
    split <;> simp
  | completePartialClose w jobId token bridge nonce =>
    simp only [start]
    split <;> simp
  | sweepPartialCloseReconcile now limit =>
    simp only [start]
    split_ifs
    · simp
    · exact Sweep.reply_ne_instruction _ i

lemma acquireJob_reply_ne {locks : ℕ → Option ℕ} {j : ℕ} {reply reply' : Option Reply}
    {next next' : Rest} (h : acquireJob db locks j reply next = .missing reply' next') :
    reply' = reply := by
  simp only [acquireJob] at h
  split at h
  · cases h; rfl
  · split_ifs at h
    cases h; rfl

lemma acquire_reply_ne {locks : ℕ → Option ℕ} {choice : ℕ} {c : Call} {reply : Option Reply}
    {next : Rest} (h : acquire db locks choice c = .missing reply next) (i : Instruction) :
    reply ≠ some (.instruction i) := by
  cases c with
  | claim w accountId nodeIds =>
    simp only [acquire] at h
    split_ifs at h
    cases h
    simp
  | authorizeSend w k token accountId nodeIds => simp [acquireJob_reply_ne h]
  | complete w k token bridge nonce now => simp [acquireJob_reply_ne h]
  | finalizeReconcile k recon reason now => simp [acquireJob_reply_ne h]
  | sweepCapture sweep k =>
    simp only [acquire] at h
    split at h
    · cases h
      exact sweep.reply_ne_instruction i
    · split_ifs at h
      cases h
      exact sweep.reply_ne_instruction i
  | sweepFinalize sweep k recon =>
    rw [acquireJob_reply_ne h]
    exact sweep.reply_ne_instruction i

lemma readBackReply_ne (recon : Option ReconStatus) (reader : Reader) (i : Instruction) :
    readBackReply recon reader ≠ some (.instruction i) := by
  cases reader with
  | complete => simp [readBackReply]
  | sweep sweep =>
    simp only [readBackReply]
    split_ifs
    · exact Sweep.reply_ne_instruction _ i
    · simp

/-- **The count changes only when an authorization commits.** -/
lemma releases_step (s : State) (a : Action) (j : ℕ) :
    releases (step s a) j = releases s j ∨
      ∃ p t i, s.pc p = .commit t ∧ t.reply = some (.instruction i) ∧ i.jobId = j ∧
        releases (step s a) j = releases s j + 1 ∧ (step s a).db = s.db.apply t := by
  have heffect := step_effect s a
  generalize step s a = s' at heffect ⊢
  cases heffect with
  | stutter => exact Or.inl rfl
  | env e => exact Or.inl rfl
  | flipPhase k phase hfree => exact Or.inl rfl
  | call p request hpc => exact Or.inl (releases_goto_of_ne s p _ j (start_reply_ne _ _ _))
  | missing p choice c reply next hpc hacq =>
    exact Or.inl (releases_goto_of_ne s p _ j (acquire_reply_ne hacq))
  | lock p choice c k hpc hacq =>
    exact Or.inl (releases_goto_of_ne s p (.locked c k) j (by simp))
  | body p hex c k job hpc hjob => exact Or.inl (releases_goto_of_ne s p _ j (by simp))
  | commit p t hpc =>
    have hcount := releases_goto s p (.rest t.next) t.reply j
    by_cases hany : t.reply.any (·.releases j) = true
    · rw [if_pos hany] at hcount
      cases hreply : t.reply with
      | none => simp [hreply] at hany
      | some reply =>
        rw [hreply] at hany
        obtain ⟨i, rfl, hi⟩ := Reply.releases_eq_true hany
        exact Or.inr ⟨p, t, i, hpc, hreply, hi, hreply ▸ hcount, rfl⟩
    · rw [if_neg hany] at hcount
      exact Or.inl hcount
  | route p plan hpc => exact Or.inl (releases_goto_of_ne s p _ j (by simp))
  | readBack p result plan reader recon hpc hrecon =>
    exact Or.inl (releases_goto_of_ne s p (.rest (afterReadBack s.env plan recon reader)) j
      (readBackReply_ne _ _))
  | abort _ p =>
    refine Or.inl ?_
    simp only [releases, abort_replies]

/-! ### The invariant -/

/-- The job `j` is a running partial close in the dispatched phase. -/
def Dispatched (db : Db) (j : ℕ) : Prop :=
  ∃ job, db.jobs.get j = some job ∧ job.jobType = .partialCloseTrade ∧ job.status = .running ∧
    job.result.phase = some .dispatched

/-- The release of the job `j` is admitted: the job is dispatched and all the flags are on. -/
def Releasable (s : State) (j : ℕ) : Prop := Dispatched s.db j ∧ flagsOk s.env.flags = true

structure ReleaseInv (s : State) : Prop where
  locks : LocksHeld s
  /-- An authorization holds the lock of a partial close. -/
  typed : ∀ p w k token accountId nodeIds j,
    s.pc p = .locked (.authorizeSend w k token accountId nodeIds) j →
    ∃ job, s.db.jobs.get j = some job ∧ job.jobType = .partialCloseTrade
  txn : ∀ p t, s.pc p = .commit t → t.Sound s.db
  dispatched : ∀ p t i, s.pc p = .commit t → t.reply = some (.instruction i) →
    Dispatched s.db t.jobId
  once : ∀ j, releases s j ≤ 1
  /-- A job whose instruction was handed out has left `PENDING` and carries a nonce. -/
  spent : ∀ j, releases s j ≠ 0 → ∃ job, s.db.jobs.get j = some job ∧ job.status ≠ .pending ∧
    job.result.hasNonce = true

lemma releaseInv_init (db : Db) (env : Env) : ReleaseInv (init db env) where
  locks := locksHeld_init db env
  typed p w k token accountId nodeIds j h := by cases h
  txn p t h := by cases h
  dispatched p t i h := by cases h
  once j := Nat.zero_le 1
  spent j h := absurd rfl h

lemma jobStep_of_step {s : State} (h : ReleaseInv s) (a : Action) {j : ℕ} {job : ExecutionJob}
    (hjob : s.db.jobs.get j = some job) :
    ∃ job', (step s a).db.jobs.get j = some job' ∧ JobStep job job' := by
  have heffect := step_effect s a
  generalize step s a = s' at heffect ⊢
  cases heffect with
  | flipPhase k phase hfree =>
    -- only the recorded phase of `k` changes
    by_cases hjk : j = k
    · subst hjk
      refine ⟨{ job with result := { job.result with phase } }, ?_,
        ⟨rfl, id, fun _ => rfl, fun _ => id⟩⟩
      simp [Db.setPhase, hjob]
    · refine ⟨job, ?_, JobStep.refl job⟩
      rw [← hjob]
      exact Table.get_modify_of_ne _ _ hjk
  | commit p t hpc =>
    by_cases hjt : j = t.jobId
    · have hget : (s.db.apply t).jobs.get j = some (t.row.getD job) := by
        rw [get_apply_jobs, if_pos hjt, hjob, Option.map_some]
      refine ⟨t.row.getD job, hget, ?_⟩
      cases hrow : t.row with
      | none => exact JobStep.refl job
      | some row =>
        obtain ⟨job₀, hjob₀, hstep⟩ := (h.txn p t hpc).row row hrow
        rw [← hjt, hjob] at hjob₀
        cases hjob₀
        exact hstep
    · exact ⟨job, by rw [get_apply_jobs, if_neg hjt, hjob], JobStep.refl job⟩
  | readBack p result plan reader recon hpc hrecon =>
    exact ⟨job, by simpa using hjob, JobStep.refl job⟩
  | _ => exact ⟨job, hjob, JobStep.refl job⟩

lemma jobType_of_acquire {locks : ℕ → Option ℕ} {choice j k : ℕ} {w : WorkerIdentity}
    {token : String} {accountId : ℕ} {nodeIds : List ℕ}
    (h : acquire db locks choice (.authorizeSend w k token accountId nodeIds) = .row j) :
    ∃ job, db.jobs.get j = some job ∧ job.jobType = .partialCloseTrade := by
  simp only [acquire, acquireJob] at h
  cases hget : db.jobs.get k with
  | none => simp [hget] at h
  | some job =>
    rw [hget] at h
    dsimp only at h
    split_ifs at h with htype hlock
    cases h
    exact ⟨job, hget, by simpa using htype⟩

/-- **Every step keeps the invariant.** -/
theorem releaseInv_step (s : State) (a : Action) (h : ReleaseInv s) : ReleaseInv (step s a) where
  locks := locksHeld_step s a h.locks
  typed p w k token accountId nodeIds j hpc := by
    rcases pc_locked_inv hpc with hold | ⟨choice, rfl, -, hacq⟩
    · have hget := jobs_get_of_held h.locks (by rw [hold]; rfl) (hpc.trans hold.symm)
      rw [hget]
      exact h.typed p w k token accountId nodeIds j hold
    · rw [step_lock_db]
      exact jobType_of_acquire hacq
  txn p t hpc := by
    rcases pc_commit_inv hpc with hold | ⟨hex, c, j, job, rfl, -, hjob, rfl⟩
    · have hget := jobs_get_of_held h.locks (by rw [hold]; rfl) (hpc.trans hold.symm)
      exact (h.txn p t hold).frame hget
    · rw [step_body_db]
      exact body_sound s.env hex.2 hjob c
  dispatched p t i hpc hreply := by
    rcases pc_commit_inv hpc with hold | ⟨hex, c, j, job, rfl, hlocked, hjob, rfl⟩
    · have hget := jobs_get_of_held h.locks (by rw [hold]; rfl) (hpc.trans hold.symm)
      rw [Dispatched, hget]
      exact h.dispatched p t i hold hreply
    · obtain ⟨⟨w, k, token, accountId, nodeIds, rfl⟩, hrunning, hphase, -⟩ :=
        authorized_of_body_instruction hreply
      obtain ⟨job', hjob', htype⟩ := h.typed p w k token accountId nodeIds j hlocked
      rw [hjob] at hjob'
      cases hjob'
      rw [step_body_db, body_jobId]
      exact ⟨job, hjob, htype, hrunning, hphase⟩
  once j := by
    rcases releases_step s a j with heq | ⟨p, t, i, hpc, hreply, hij, hcount, -⟩
    · rw [heq]
      exact h.once j
    · -- the job carried no nonce, so nothing had been handed out for it
      obtain ⟨hi, job, job', hjob, -, -, hfresh, -⟩ := (h.txn p t hpc).release i hreply
      have hzero : releases s j = 0 := by
        by_contra hspent
        obtain ⟨job₀, hjob₀, -, hnonce⟩ := h.spent j hspent
        rw [← hij, hi, hjob] at hjob₀
        cases hjob₀
        rw [hfresh] at hnonce
        cases hnonce
      omega
  spent j hspent := by
    rcases releases_step s a j with heq | ⟨p, t, i, hpc, hreply, hij, -, hdb⟩
    · rw [heq] at hspent
      obtain ⟨job, hjob, hpending, hnonce⟩ := h.spent j hspent
      obtain ⟨job', hjob', hstep⟩ := jobStep_of_step h a hjob
      exact ⟨job', hjob', hstep.pending hpending, hstep.nonce hpending hnonce⟩
    · -- the commit of the release itself writes the nonce
      obtain ⟨hi, job, job', hjob, hrow, hrunning, -, hset⟩ := (h.txn p t hpc).release i hreply
      obtain ⟨job₀, hjob₀, hstep⟩ := (h.txn p t hpc).row job' hrow
      rw [hjob] at hjob₀
      cases hjob₀
      refine ⟨job', ?_, hstep.pending (by simp [hrunning]), hset⟩
      rw [hdb, ← hij, hi, get_apply_jobs, if_pos rfl, hjob, hrow]
      rfl

lemma releaseInv_run (db : Db) (env : Env) (as : List Action) :
    ReleaseInv (run step (init db env) as) :=
  run_invariant releaseInv_step (releaseInv_init db env) as

/-! ### Whole runs -/

/-- Between two states, every job row has changed as the consumer changes it. -/
def JobsStep (s s' : State) : Prop :=
  ∀ j job, s.db.jobs.get j = some job → ∃ job', s'.db.jobs.get j = some job' ∧ JobStep job job'

instance : Std.Refl JobsStep := ⟨fun _ _ job hjob => ⟨job, hjob, JobStep.refl job⟩⟩

instance : IsTrans State JobsStep where
  trans s₁ s₂ s₃ h₁ h₂ j job hjob := by
    obtain ⟨job', hjob', hstep⟩ := h₁ j job hjob
    obtain ⟨job'', hjob'', hstep'⟩ := h₂ j job' hjob'
    exact ⟨job'', hjob'', hstep.trans hstep'⟩

lemma releasable_visited (db : Db) (env : Env) (as : List Action) :
    ∀ p t i, (run step (init db env) as).pc p = .commit t → t.reply = some (.instruction i) →
      Visited step (init db env) as fun s => Releasable s t.jobId := by
  induction as using List.reverseRecOn with
  | nil =>
    intro p t i hpc
    cases hpc
  | append_singleton as a ih =>
    intro p t i hpc hreply
    rw [run_concat] at hpc
    rcases pc_commit_inv hpc with hold | ⟨hex, c, j, job, -, hlocked, hjob, rfl⟩
    · exact (ih p t i hold hreply).append [a]
    · -- the admission was evaluated in the state before this step
      refine Visited.append (Visited.last ?_) [a]
      obtain ⟨⟨w, k, token, accountId, nodeIds, rfl⟩, hrunning, hphase, hflags⟩ :=
        authorized_of_body_instruction hreply
      obtain ⟨job', hjob', htype⟩ :=
        (releaseInv_run db env as).typed p w k token accountId nodeIds j hlocked
      rw [hjob] at hjob'
      cases hjob'
      rw [body_jobId]
      exact ⟨⟨job, hjob, htype, hrunning, hphase⟩, hflags⟩

/-- **A partial close is released at most once.**  In every run, the instruction of a job is
handed out at most once; the step that hands it out is taken while the job is running in the
dispatched phase, after an admission in a state in which moreover all the flags were on; no job
returns to `PENDING`, and no job leaves `SUCCESS` or `FAILED`. -/
theorem partial_close_released_at_most_once (db : Db) (env : Env) (as : List Action) (j : ℕ) :
    releases (run step (init db env) as) j ≤ 1 ∧
    (∀ pre a, pre ++ [a] <+: as →
      releases (run step (init db env) (pre ++ [a])) j ≠ releases (run step (init db env) pre) j →
      Dispatched (run step (init db env) pre).db j ∧
        Visited step (init db env) pre fun s => Releasable s j) ∧
    (∀ pre job, pre <+: as → (run step (init db env) pre).db.jobs.get j = some job →
      ∃ job', (run step (init db env) as).db.jobs.get j = some job' ∧
        (job.status ≠ .pending → job'.status ≠ .pending) ∧
        (job.status.isTerminal → job'.status = job.status)) := by
  refine ⟨(releaseInv_run db env as).once j, ?_, ?_⟩
  · intro pre a _ hne
    rw [run_concat] at hne
    rcases releases_step (run step (init db env) pre) a j with
      heq | ⟨p, t, i, hpc, hreply, hij, -, -⟩
    · exact absurd heq hne
    · have hinv := releaseInv_run db env pre
      have hi := ((hinv.txn p t hpc).release i hreply).1
      have htj : t.jobId = j := hi.symm.trans hij
      refine ⟨htj ▸ hinv.dispatched p t i hpc hreply, ?_⟩
      exact htj ▸ releasable_visited db env pre p t i hpc hreply
  · rintro pre job ⟨post, rfl⟩ hjob
    rw [run_append]
    have hrel : JobsStep (run step (init db env) pre)
        (run step (run step (init db env) pre) post) :=
      run_rel releaseInv_step (fun s a h k job hk => jobStep_of_step h a hk)
        (releaseInv_run db env pre) post
    obtain ⟨job', hjob', hstep⟩ := hrel j job hjob
    exact ⟨job', hjob', hstep.pending, hstep.terminal⟩

end Consumer
end GuvFX
