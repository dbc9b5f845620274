/-
# The partial-close consumer as a concurrent system

Any number of sessions run the functions of the consumer against one database.  A transaction
takes three steps: it acquires the row lock of its job, computes its writes, and commits; the
reads outside any transaction, and the write of a read-back, are steps of their own.  Between
two steps of a session every other session may move, the environment may change, and a session
may crash, which rolls its open transaction back.

An action that is not enabled leaves the state as it is.
-/
import Mathlib.Data.List.Sort
import Mathlib.Logic.Function.Basic
import GuvFX.Lib.Runs
import GuvFX.TradeCopier.Consumer

namespace GuvFX
namespace Consumer

open Flags Reconcile

/-- Where a session stands: outside any transaction, holding the lock of a job before it has
computed its writes, or about to commit them. -/
inductive Pc where
  | rest (r : Rest)
  | locked (c : Call) (jobId : ℕ)
  | commit (t : Txn)
  deriving DecidableEq, Repr

/-- The job whose lock a session holds. -/
def Pc.holds : Pc → Option ℕ
  | .rest _ => none
  | .locked _ j => some j
  | .commit t => some t.jobId

structure State where
  db : Db
  env : Env
  /-- Where each session stands. -/
  pc : ℕ → Pc
  /-- The session that holds the row lock of a job. -/
  locks : ℕ → Option ℕ
  /-- The answers given so far, each with the session it was given to. -/
  replies : List (ℕ × Reply)

/-- The system before any session has started. -/
def init (db : Db) (env : Env) : State :=
  { db, env, pc := fun _ => .rest .idle, locks := fun _ => none, replies := [] }

/-- The functions that a session may be asked to run. -/
inductive Request where
  | claimPartialClose (w : Option WorkerIdentity) (accountId : Option ℕ)
      (hostnames : List String)
  | authorizeSend (w : Option WorkerIdentity) (jobId : ℕ) (dispatchToken : String)
      (accountId : ℕ) (hostnames : List String)
  | completePartialClose (w : Option WorkerIdentity) (jobId : ℕ) (dispatchToken : String)
      (bridge : BridgeResult) (sendNonce : Option String)
  | sweepPartialCloseReconcile (now : Option Time) (limit : ℕ)

/-- The steps of the system. -/
inductive Action where
  /-- Flags, clock, accounts, nodes and instruments change in any way. -/
  | env (e : Env)
  /-- The execution phase recorded on a job is overwritten. -/
  | flipPhase (j : ℕ) (phase : Option Phase)
  | call (p : ℕ) (request : Request)
  /-- Session `p` acquires its row lock; `choice` is the row that the claim query returns. -/
  | lock (p choice : ℕ)
  /-- Session `p` computes its writes, with `hex` for a fresh identifier. -/
  | body (p : ℕ) (hex : { s : String // s ≠ "" })
  | commit (p : ℕ)
  | route (p : ℕ)
  | readBack (p : ℕ) (result : MasterReadResult)
  | crash (p : ℕ)

/-! ### The parts of a step -/

/-- The candidates of a sweep: running partial closes whose lease is well expired. -/
def sweepCandidates (env : Env) (db : Db) (now : Time) (limit : ℕ) : List ℕ :=
  let cutoff := now - env.sweepGraceSeconds
  let expired := db.jobs.filter fun _ job =>
    job.status = .running ∧ job.jobType = .partialCloseTrade ∧
      job.leaseExpiresAt.any fun lease => lease < cutoff
  let ordered := expired.insertionSort fun e e' =>
    e.2.leaseExpiresAt.getD 0 ≤ e'.2.leaseExpiresAt.getD 0
  (ordered.map Prod.fst).take limit

/-- The part of a function before its first transaction. -/
def start (env : Env) (db : Db) : Request → Rest × Option Reply
  | .claimPartialClose w accountId hostnames =>
    match assertDedicatedWorker w with
    | .error reason => (.idle, some (.raised reason))
    | .ok w =>
      if !flagsOk env.flags then (.idle, some (.refused "flags_off"))
      else
        match accountId with
        | none => (.idle, some (.refused "no_authorized_account"))
        | some accountId =>
          if activeNodeIds env hostnames = [] then
            (.idle, some (.refused "no_active_authorized_node"))
          else (.ready (.claim w accountId (activeNodeIds env hostnames)), none)
  | .authorizeSend w jobId dispatchToken accountId hostnames =>
    match assertDedicatedWorker w with
    | .error reason => (.idle, some (.raised reason))
    | .ok w =>
      (.ready (.authorizeSend w jobId dispatchToken accountId (activeNodeIds env hostnames)), none)
  | .completePartialClose w jobId dispatchToken bridge sendNonce =>
    match assertDedicatedWorker w with
    | .error reason => (.idle, some (.raised reason))
    | .ok w => (.ready (.complete w jobId dispatchToken bridge sendNonce env.now), none)
  | .sweepPartialCloseReconcile now limit =>
    if !copierEnabled env.flags then (.idle, some (.swept 0 0))
    else
      let now := now.getD env.now
      let sweep : Sweep :=
        { now, todo := sweepCandidates env db now limit, scanned := 0, finalized := 0 }
      (sweep.next, sweep.reply)

/-- The outcome of a locking read: it waits, it finds no row, or it locks a row. -/
inductive Acquired where
  | blocked
  | missing (reply : Option Reply) (next : Rest)
  | row (j : ℕ)
  deriving DecidableEq, Repr

/-- The rows that the query of a claim can lock. -/
def claimable (db : Db) (locks : ℕ → Option ℕ) (accountId : ℕ) (nodeIds : List ℕ) :
    List (ℕ × ExecutionJob) :=
  db.jobs.filter fun j job =>
    locks j = none ∧ job.status = .pending ∧ job.jobType = .partialCloseTrade ∧
      job.accountId = accountId ∧ job.terminalNodeId.any (· ∈ nodeIds)

/-- The lock of the partial-close job `j`, waiting for its holder; `reply` and `next` apply when
there is no such job. -/
def acquireJob (db : Db) (locks : ℕ → Option ℕ) (j : ℕ) (reply : Option Reply) (next : Rest) :
    Acquired :=
  match db.jobs.get j with
  | none => .missing reply next
  | some job =>
    if job.jobType ≠ .partialCloseTrade then .missing reply next
    else if locks j ≠ none then .blocked
    else .row j

def acquire (db : Db) (locks : ℕ → Option ℕ) (choice : ℕ) : Call → Acquired
  | .claim _ accountId nodeIds =>
    -- the oldest candidate; locked rows are skipped
    let rows := claimable db locks accountId nodeIds
    if rows = [] then .missing (some (.refused "no_jobs")) .idle
    else if rows.any fun e =>
        e.1 = choice ∧ rows.all fun e' => e.2.createdAt ≤ e'.2.createdAt then .row choice
    else .blocked
  | .authorizeSend _ j _ _ _ => acquireJob db locks j (some (.raised "job_not_found")) .idle
  | .complete _ j _ _ _ _ => acquireJob db locks j (some (.raised "job_not_found")) .idle
  | .finalizeReconcile j _ _ _ => acquireJob db locks j (some (.raised "job_not_found")) .idle
  | .sweepCapture sweep j =>
    -- a locked row, or a row that is no longer running, is skipped
    match db.jobs.get j with
    | none => .missing sweep.reply sweep.next
    | some job =>
      if job.status = .running ∧ locks j = none then .row j
      else .missing sweep.reply sweep.next
  | .sweepFinalize sweep j _ => acquireJob db locks j sweep.reply sweep.next

/-- The writes of a transaction. -/
def Db.apply (db : Db) (t : Txn) : Db where
  jobs :=
    match t.row with
    | none => db.jobs
    | some row => db.jobs.modify t.jobId fun _ => row
  replications :=
    match t.recon with
    | none => db.replications
    | some (r, c) => db.replications.modify r fun rep => { rep with reconciliationStatus := c }

/-- The write of a status to a replication, outside any transaction. -/
def Db.setRecon (db : Db) (r : ℕ) (recon : Option ReconStatus) : Db :=
  match recon with
  | none => db
  | some c =>
    { db with
      replications := db.replications.modify r fun rep => { rep with reconciliationStatus := c } }

def Db.setPhase (db : Db) (j : ℕ) (phase : Option Phase) : Db :=
  { db with
    jobs := db.jobs.modify j fun job => { job with result := { job.result with phase } } }

/-- Session `p` moves to `pc`, with an answer or without. -/
def State.goto (s : State) (p : ℕ) (pc : Pc) (reply : Option Reply := none) : State :=
  { s with
    pc := Function.update s.pc p pc
    replies := s.replies ++ (reply.map fun r => (p, r)).toList }

/-- The locks without those of session `p`. -/
def releaseLocks (locks : ℕ → Option ℕ) (p : ℕ) : ℕ → Option ℕ :=
  fun j => if locks j = some p then none else locks j

/-- Session `p` gives up what it does, and its locks. -/
def State.abort (s : State) (p : ℕ) : State :=
  { s.goto p (.rest .idle) with locks := releaseLocks s.locks p }

def step (s : State) : Action → State
  | .env e => { s with env := e }
  | .flipPhase j phase =>
    if s.locks j = none then { s with db := s.db.setPhase j phase } else s
  | .call p request =>
    if s.pc p = .rest .idle then
      s.goto p (.rest (start s.env s.db request).1) (start s.env s.db request).2
    else s
  | .lock p choice =>
    match s.pc p with
    | .rest (.ready c) =>
      match acquire s.db s.locks choice c with
      | .blocked => s
      | .missing reply next => s.goto p (.rest next) reply
      | .row j => { s.goto p (.locked c j) with locks := Function.update s.locks j (some p) }
    | _ => s
  | .body p hex =>
    match s.pc p with
    | .locked c j =>
      match s.db.jobs.get j with
      | none => s.abort p
      | some job => s.goto p (.commit (body s.env s.db hex j job c))
    | _ => s
  | .commit p =>
    match s.pc p with
    | .commit t =>
      { s.goto p (.rest t.next) t.reply with
        db := s.db.apply t
        locks := Function.update s.locks t.jobId none }
    | _ => s
  | .route p =>
    match s.pc p with
    | .rest (.completeRoute plan) => s.goto p (.rest (completeRoute s.env plan))
    | _ => s
  | .readBack p result =>
    match s.pc p with
    | .rest (.readBack plan reader) =>
      let recon := partialCloseStatus plan.followerTicket plan.intendedRemaining plan.step result
      { s.goto p (.rest (afterReadBack s.env plan recon reader)) (readBackReply recon reader) with
        db := s.db.setRecon plan.replicationId recon }
    | _ => s
  | .crash p => s.abort p

/-! ### What a step can do -/

/-- The effects of a step, with what enables each of them. -/
inductive Effect (s : State) : Action → State → Prop where
  | stutter (a : Action) : Effect s a s
  | env (e : Env) : Effect s (.env e) { s with env := e }
  | flipPhase (j : ℕ) (phase : Option Phase) (hfree : s.locks j = none) :
      Effect s (.flipPhase j phase) { s with db := s.db.setPhase j phase }
  | call (p : ℕ) (request : Request) (hpc : s.pc p = .rest .idle) :
      Effect s (.call p request)
        (s.goto p (.rest (start s.env s.db request).1) (start s.env s.db request).2)
  | missing (p choice : ℕ) (c : Call) (reply : Option Reply) (next : Rest)
      (hpc : s.pc p = .rest (.ready c))
      (hacq : acquire s.db s.locks choice c = .missing reply next) :
      Effect s (.lock p choice) (s.goto p (.rest next) reply)
  | lock (p choice : ℕ) (c : Call) (j : ℕ) (hpc : s.pc p = .rest (.ready c))
      (hacq : acquire s.db s.locks choice c = .row j) :
      Effect s (.lock p choice)
        { s.goto p (.locked c j) with locks := Function.update s.locks j (some p) }
  | body (p : ℕ) (hex : { s : String // s ≠ "" }) (c : Call) (j : ℕ) (job : ExecutionJob)
      (hpc : s.pc p = .locked c j) (hjob : s.db.jobs.get j = some job) :
      Effect s (.body p hex) (s.goto p (.commit (body s.env s.db hex j job c)))
  | commit (p : ℕ) (t : Txn) (hpc : s.pc p = .commit t) :
      Effect s (.commit p)
        { s.goto p (.rest t.next) t.reply with
          db := s.db.apply t
          locks := Function.update s.locks t.jobId none }
  | route (p : ℕ) (plan : CompletePlan) (hpc : s.pc p = .rest (.completeRoute plan)) :
      Effect s (.route p) (s.goto p (.rest (completeRoute s.env plan)))
  | readBack (p : ℕ) (result : MasterReadResult) (plan : ReadPlan) (reader : Reader)
      (recon : Option ReconStatus) (hpc : s.pc p = .rest (.readBack plan reader))
      (hrecon : partialCloseStatus plan.followerTicket plan.intendedRemaining plan.step result
        = recon) :
      Effect s (.readBack p result)
        { s.goto p (.rest (afterReadBack s.env plan recon reader)) (readBackReply recon reader)
          with db := s.db.setRecon plan.replicationId recon }
  | abort (a : Action) (p : ℕ) : Effect s a (s.abort p)

/-- **Every step has one of the effects.** -/
theorem step_effect (s : State) (a : Action) : Effect s a (step s a) := by
  cases a with
  | env e => exact .env e
  | flipPhase j phase =>
    simp only [step]
    split_ifs with hfree
    · exact .flipPhase j phase hfree
    · exact .stutter _
  | call p request =>
    simp only [step]
    split_ifs with hpc
    · exact .call p request hpc
    · exact .stutter _
  | lock p choice =>
    simp only [step]
    split
    · rename_i c hpc
      split
      · exact .stutter _
      · rename_i reply next hacq
        exact .missing p choice c reply next hpc hacq
      · rename_i j hacq
        exact .lock p choice c j hpc hacq
    · exact .stutter _
  | body p hex =>
    simp only [step]
    split
    · rename_i c j hpc
      split
      · exact .abort _ p
      · rename_i job hjob
        exact .body p hex c j job hpc hjob
    · exact .stutter _
  | commit p =>
    simp only [step]
    split
    · rename_i t hpc
      exact .commit p t hpc
    · exact .stutter _
  | route p =>
    simp only [step]
    split
    · rename_i plan hpc
      exact .route p plan hpc
    · exact .stutter _
  | readBack p result =>
    simp only [step]
    split
    · rename_i plan reader hpc
      exact .readBack p result plan reader _ hpc rfl
    · exact .stutter _
  | crash p => exact .abort _ p

/-! ### Sessions and locks -/

@[simp] lemma goto_pc (s : State) (p : ℕ) (pc : Pc) (reply : Option Reply) :
    (s.goto p pc reply).pc = Function.update s.pc p pc := rfl

@[simp] lemma abort_replies (s : State) (p : ℕ) : (s.abort p).replies = s.replies := by
  simp [State.abort, State.goto]

def LocksHeld (s : State) : Prop := ∀ p j, (s.pc p).holds = some j → s.locks j = some p

lemma LocksHeld.unique {s : State} (h : LocksHeld s) {p q j : ℕ}
    (hp : (s.pc p).holds = some j) (hq : (s.pc q).holds = some j) : p = q := by
  have hlock := (h p j hp).symm.trans (h q j hq)
  exact Option.some.inj hlock

lemma LocksHeld.not_free {s : State} (h : LocksHeld s) {p j : ℕ}
    (hp : (s.pc p).holds = some j) : s.locks j ≠ none := by
  simp [h p j hp]

lemma LocksHeld.rest {s : State} (h : LocksHeld s) (p : ℕ) (r : Rest) :
    ∀ q j, (Function.update s.pc p (.rest r) q).holds = some j → q ≠ p ∧ s.locks j = some q := by
  intro q j hq
  by_cases hqp : q = p
  · subst hqp
    simp [Pc.holds] at hq
  · rw [Function.update_of_ne hqp] at hq
    exact ⟨hqp, h q j hq⟩

lemma acquireJob_free {db : Db} {locks : ℕ → Option ℕ} {i j : ℕ} {reply : Option Reply}
    {next : Rest} (h : acquireJob db locks i reply next = .row j) : locks j = none ∧ i = j := by
  simp only [acquireJob] at h
  split at h
  · cases h
  · split_ifs at h with htype hlock
    cases h
    exact ⟨by simpa using hlock, rfl⟩

lemma acquire_free {db : Db} {locks : ℕ → Option ℕ} {choice j : ℕ} {c : Call}
    (h : acquire db locks choice c = .row j) : locks j = none := by
  cases c with
  | claim w accountId nodeIds =>
    simp only [acquire] at h
    split_ifs at h with hempty holdest
    cases h
    obtain ⟨e, hmem, hchoice⟩ := List.any_eq_true.mp holdest
    have heq : e.1 = choice := (of_decide_eq_true hchoice).1
    have hfilter := of_decide_eq_true (List.mem_filter.mp hmem).2
    rw [← heq]
    exact hfilter.1
  | authorizeSend w i token accountId nodeIds => exact (acquireJob_free h).1
  | complete w i token bridge nonce now => exact (acquireJob_free h).1
  | finalizeReconcile i recon reason now => exact (acquireJob_free h).1
  | sweepCapture sweep i =>
    simp only [acquire] at h
    split at h
    · cases h
    · split_ifs at h with hrunning
      cases h
      exact hrunning.2
  | sweepFinalize sweep i recon => exact (acquireJob_free h).1

section Bodies

variable (env : Env) (db : Db) (w : WorkerIdentity) (j : ℕ) (job : ExecutionJob)

@[simp] lemma claimBody_jobId (accountId : ℕ) (nodeIds : List ℕ) (token : String) :
    (claimBody env db w accountId nodeIds token j job).jobId = j := by
  simp only [claimBody]
  split
  · rfl
  · split
    · rfl
    · split <;> rfl

@[simp] lemma authorizeBody_jobId (token : String) (accountId : ℕ) (nodeIds : List ℕ)
    (nonce : String) :
    (authorizeBody env db w token accountId nodeIds nonce j job).jobId = j := by
  simp only [authorizeBody]
  split
  · rfl
  · split
    · rfl
    · split <;> rfl

@[simp] lemma completeBody_jobId (token : String) (bridge : BridgeResult)
    (nonce : Option String) (now : Time) :
    (completeBody db w token bridge nonce now env j job).jobId = j := by
  simp only [completeBody]
  cases replicationForJob db j with
  | none => split_ifs <;> rfl
  | some e =>
    dsimp only
    split_ifs <;> rfl

/-- The transaction that `body` computes is about the job it has locked. -/
@[simp] lemma body_jobId (hex : String) (c : Call) : (body env db hex j job c).jobId = j := by
  cases c with
  | claim w accountId nodeIds => exact claimBody_jobId env db w j job accountId nodeIds hex
  | authorizeSend w i token accountId nodeIds =>
    exact authorizeBody_jobId env db w j job token accountId nodeIds hex
  | complete w i token bridge nonce now =>
    exact completeBody_jobId env db w j job token bridge nonce now
  | finalizeReconcile i recon reason now => rfl
  | sweepCapture sweep i =>
    simp only [body]
    rcases sweepCaptureBody_cases env db j job sweep with
      heq | ⟨r, rep, -, ⟨-, heq⟩ | ⟨-, job', -, ⟨c, -, heq⟩ | ⟨plan, heq, -⟩⟩⟩ <;> rw [heq]
  | sweepFinalize sweep i recon =>
    simp only [body, sweepFinalizeBody]
    split_ifs <;> rfl

end Bodies

lemma locksHeld_init (db : Db) (env : Env) : LocksHeld (init db env) := by
  intro p j h
  cases h

/-- **The locks are respected by every step.** -/
theorem locksHeld_step (s : State) (a : Action) (h : LocksHeld s) : LocksHeld (step s a) := by
  have heffect := step_effect s a
  generalize step s a = s' at heffect
  cases heffect with
  | stutter => exact h
  | env e => exact h
  | flipPhase j phase hfree => exact h
  | call p request hpc => exact fun q j hq => (h.rest p _ q j hq).2
  | missing p choice c reply next hpc hacq => exact fun q j hq => (h.rest p _ q j hq).2
  | lock p choice c j hpc hacq =>
    intro q i hq
    by_cases hqp : q = p
    · subst hqp
      simp only [goto_pc, Function.update_self, Pc.holds, Option.some.injEq] at hq
      subst hq
      simp
    · simp only [goto_pc, Function.update_of_ne hqp] at hq
      -- another holder of the lock would have kept it from being free
      have hij : i ≠ j := by
        rintro rfl
        exact h.not_free hq (acquire_free hacq)
      simpa [Function.update_of_ne hij] using h q i hq
  | body p hex c j job hpc hjob =>
    intro q i hq
    by_cases hqp : q = p
    · subst hqp
      simp only [goto_pc, Function.update_self, Pc.holds, body_jobId] at hq
      exact h q i (by rw [hpc]; exact hq)
    · simp only [goto_pc, Function.update_of_ne hqp] at hq
      exact h q i hq
  | commit p t hpc =>
    intro q i hq
    obtain ⟨hqp, hlock⟩ := h.rest p _ q i hq
    have hij : i ≠ t.jobId := by
      rintro rfl
      have hp : s.locks t.jobId = some p := h p _ (by rw [hpc]; rfl)
      rw [hlock] at hp
      exact hqp (Option.some.inj hp)
    simpa [Function.update_of_ne hij] using hlock
  | route p plan hpc => exact fun q j hq => (h.rest p _ q j hq).2
  | readBack p result plan reader recon hpc hrecon => exact fun q j hq => (h.rest p _ q j hq).2
  | abort _ p =>
    intro q j hq
    obtain ⟨hqp, hlock⟩ := h.rest p _ q j hq
    have hne : some q ≠ some p := fun heq => hqp (Option.some.inj heq)
    simp [State.abort, releaseLocks, hlock, hne]

/-! ### Where a session comes from -/

/-- The ways in which session `p` comes to its place in a step. -/
inductive Move (s : State) (p : ℕ) : Action → Pc → Prop where
  | stay (a : Action) : Move s p a (s.pc p)
  | call (request : Request) (hpc : s.pc p = .rest .idle) :
      Move s p (.call p request) (.rest (start s.env s.db request).1)
  | missing (choice : ℕ) (c : Call) (reply : Option Reply) (next : Rest)
      (hpc : s.pc p = .rest (.ready c))
      (hacq : acquire s.db s.locks choice c = .missing reply next) :
      Move s p (.lock p choice) (.rest next)
  | lock (choice : ℕ) (c : Call) (j : ℕ) (hpc : s.pc p = .rest (.ready c))
      (hacq : acquire s.db s.locks choice c = .row j) :
      Move s p (.lock p choice) (.locked c j)
  | body (hex : { s : String // s ≠ "" }) (c : Call) (j : ℕ) (job : ExecutionJob)
      (hpc : s.pc p = .locked c j) (hjob : s.db.jobs.get j = some job) :
      Move s p (.body p hex) (.commit (body s.env s.db hex j job c))
  | commit (t : Txn) (hpc : s.pc p = .commit t) : Move s p (.commit p) (.rest t.next)
  | route (plan : CompletePlan) (hpc : s.pc p = .rest (.completeRoute plan)) :
      Move s p (.route p) (.rest (completeRoute s.env plan))
  | readBack (result : MasterReadResult) (plan : ReadPlan) (reader : Reader)
      (recon : Option ReconStatus) (hpc : s.pc p = .rest (.readBack plan reader))
      (hrecon : partialCloseStatus plan.followerTicket plan.intendedRemaining plan.step result
        = recon) :
      Move s p (.readBack p result) (.rest (afterReadBack s.env plan recon reader))
  | abort (a : Action) : Move s p a (.rest .idle)

/-- A step that moves session `q` to `pc` either leaves session `p` where it is, or `p` is `q`. -/
lemma move_of_update {s s' : State} {a : Action} {q : ℕ} {pc : Pc}
    (hpc : s'.pc = Function.update s.pc q pc) (hmove : Move s q a pc) (p : ℕ) :
    Move s p a (s'.pc p) := by
  rw [hpc]
  by_cases hpq : p = q
  · subst hpq
    simpa using hmove
  · rw [Function.update_of_ne hpq]
    exact .stay a

/-- **Every session comes to its place in one of these ways.** -/
theorem step_move (s : State) (a : Action) (p : ℕ) : Move s p a ((step s a).pc p) := by
  have heffect := step_effect s a
  generalize step s a = s' at heffect ⊢
  cases heffect with
  | stutter => exact .stay a
  | env e => exact .stay _
  | flipPhase j phase hfree => exact .stay _
  | call q request hpc => exact move_of_update rfl (.call request hpc) p
  | missing q choice c reply next hpc hacq =>
    exact move_of_update rfl (.missing choice c reply next hpc hacq) p
  | lock q choice c j hpc hacq => exact move_of_update rfl (.lock choice c j hpc hacq) p
  | body q hex c j job hpc hjob => exact move_of_update rfl (.body hex c j job hpc hjob) p
  | commit q t hpc => exact move_of_update rfl (.commit t hpc) p
  | route q plan hpc => exact move_of_update rfl (.route plan hpc) p
  | readBack q result plan reader recon hpc hrecon =>
    exact move_of_update rfl (.readBack result plan reader recon hpc hrecon) p
  | abort _ q => exact move_of_update rfl (.abort a) p

lemma pc_commit_inv {s : State} {a : Action} {p : ℕ} {t : Txn}
    (h : (step s a).pc p = .commit t) :
    s.pc p = .commit t ∨ ∃ (hex : { s : String // s ≠ "" }) (c : Call) (j : ℕ)
      (job : ExecutionJob), a = .body p hex ∧ s.pc p = .locked c j ∧
      s.db.jobs.get j = some job ∧ t = body s.env s.db hex j job c := by
  have hmove := step_move s a p
  rw [h] at hmove
  generalize hpc' : Pc.commit t = pc' at hmove
  cases hmove with
  | stay => exact Or.inl rfl
  | body hex c j job hpc hjob =>
    cases hpc'
    exact Or.inr ⟨hex, c, j, job, rfl, hpc, hjob, rfl⟩
  | _ => cases hpc'

lemma pc_locked_inv {s : State} {a : Action} {p : ℕ} {c : Call} {j : ℕ}
    (h : (step s a).pc p = .locked c j) :
    s.pc p = .locked c j ∨ ∃ choice, a = .lock p choice ∧ s.pc p = .rest (.ready c) ∧
      acquire s.db s.locks choice c = .row j := by
  have hmove := step_move s a p
  rw [h] at hmove
  generalize hpc' : Pc.locked c j = pc' at hmove
  cases hmove with
  | stay => exact Or.inl rfl
  | lock choice c' j' hpc hacq =>
    cases hpc'
    exact Or.inr ⟨choice, rfl, hpc, hacq⟩
  | _ => cases hpc'

lemma step_body_db (s : State) (p : ℕ) (hex : { s : String // s ≠ "" }) :
    (step s (.body p hex)).db = s.db := by
  simp only [step]
  split
  · split <;> rfl
  · rfl

lemma step_lock_db (s : State) (p choice : ℕ) : (step s (.lock p choice)).db = s.db := by
  simp only [step]
  split
  · split <;> rfl
  · rfl

/-! ### What a step leaves unchanged -/

lemma get_apply_jobs (db : Db) (t : Txn) (j : ℕ) :
    (db.apply t).jobs.get j =
      if j = t.jobId then (db.jobs.get j).map fun job => t.row.getD job else db.jobs.get j := by
  cases hrow : t.row with
  | none => simp [Db.apply, hrow]
  | some row =>
    simp only [Db.apply, hrow, Table.get_modify]
    split_ifs with hj
    · rw [hj]; rfl
    · rfl

@[simp] lemma setRecon_jobs (db : Db) (r : ℕ) (recon : Option ReconStatus) :
    (db.setRecon r recon).jobs = db.jobs := by
  cases recon <;> rfl

lemma jobs_get_of_held {s : State} {a : Action} (h : LocksHeld s) {p j : ℕ}
    (hheld : (s.pc p).holds = some j) (hstay : (step s a).pc p = s.pc p) :
    (step s a).db.jobs.get j = s.db.jobs.get j := by
  have heffect := step_effect s a
  generalize step s a = s' at heffect hstay ⊢
  cases heffect with
  | stutter => rfl
  | env e => rfl
  | flipPhase i phase hfree =>
    have hij : j ≠ i := by
      rintro rfl
      exact h.not_free hheld hfree
    exact Table.get_modify_of_ne _ _ hij
  | call q request hpc => rfl
  | missing q choice c reply next hpc hacq => rfl
  | lock q choice c i hpc hacq => rfl
  | body q hex c i job hpc hjob => rfl
  | commit q t hpc =>
    have hpq : p ≠ q := by
      rintro rfl
      simp [hpc] at hstay
    have hjt : j ≠ t.jobId := by
      rintro rfl
      exact hpq (h.unique hheld (by rw [hpc]; rfl))
    exact (get_apply_jobs s.db t j).trans (if_neg hjt)
  | route q plan hpc => rfl
  | readBack q result plan reader recon hpc hrecon => simp
  | abort _ q => rfl

end Consumer
end GuvFX
