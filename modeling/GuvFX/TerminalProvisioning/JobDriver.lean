/-
# The driver of a provisioning job

Any number of workers claim one job, each under a lease, drive the runtime and save the end of their
attempt.  The claim is one transaction, and it counts the attempts; what follows it asks for no lease
any more.  A worker that outlives its lease goes on beside the next attempt, and its last save writes over
whatever the job has become.  A drive does what the state of the runtime calls for, and in the states
that call for nothing it does nothing, and the job is done.

The number of claims is bounded in every run.  The rest is kept in the runs in which no attempt goes on
after the job was claimed again, and every drive finds a state from which it leads to a verification, or
is refused.
-/
import GuvFX.TerminalProvisioning.RuntimeRows
import Mathlib.Algebra.Order.Field.Rat
import Mathlib.Tactic.Linarith

namespace GuvFX
namespace TerminalProvisioning

open Runs

/-! ### What the driver promises -/

/-- The report was made when the runtime began to run, and the runtime has run ever since; where the
login is required, it was that of the account. -/
structure ReportsRun (env : Env) (requireLogin : Bool) (s : State) (k : ℕ) (report : Report) : Prop where
  runtime : report.runtime = k
  made : 0 < report.eventsUpTo ∧ report.eventsUpTo ≤ (s.events k).length
  since : ∀ e ∈ (s.events k).drop (report.eventsUpTo - 1), e.toState = .running
  evidence : report.evidence.running = true
  login : requireLogin = true → LoginMatches (env.accounts k) report.evidence

/-- The runtime is running, with a verification report of this run. -/
structure Verified (env : Env) (requireLogin : Bool) (s : State) (k : ℕ) : Prop where
  running : ∃ rt, s.runtimes.get k = some rt ∧ rt.state = .running
  reported : ∃ report ∈ s.reports, ReportsRun env requireLogin s k report

/-- The call `c` works under the lease of the job, and no other call does. -/
structure HoldsLease (s : State) (j c : ℕ) (job : ProvisioningJob) : Prop where
  lease : ∃ call claim, s.calls c = some call ∧ call.claim = some claim ∧
    claim.attempt = job.attempt ∧ job.leaseExpiresAt = some claim.leaseExpiresAt
  only : ∀ q call claim, s.calls q = some call → call.claim = some claim → claim.job = j →
    claim.attempt = job.attempt → q = c

/-- What a step keeps of the job `j`: a job that is done or failed stays as it is, a live lease keeps the
others away, and a provisioning or a start that becomes done leaves a verified runtime. -/
structure WellDriven (env : Env) (requireLogin : Bool) (j : ℕ) (s : State) (a : Action) : Prop where
  settled : ∀ job, s.jobs.get j = some job → job.status.active = false →
    (step env s a).jobs.get j = some job
  refused : ∀ c job, a = .claim c j → s.jobs.get j = some job → s.leased job = true →
    step env s a = s
  alone : ∀ c reply call job, a = .step c reply → s.calls c = some call → s.jobs.get j = some job →
    s.leased job = true → HoldsLease s j c job
  verified : ∀ job job', s.jobs.get j = some job → job.status ≠ .done →
    (step env s a).jobs.get j = some job' → job'.status = .done →
    job.op = .provision ∨ job.op = .start → Verified env requireLogin (step env s a) job.runtime

/-- What the workers of the job do: they claim it, go on, or crash, and time passes.  If the login is
required, it is so at every verification. -/
def OfJob (requireLogin : Bool) (j : ℕ) : Action → Prop
  | .tick _ | .crash _ => True
  | .claim _ j' => j' = j
  | .step _ reply => requireLogin = true → reply.requireLogin = true
  | .enqueue _ _ | .request _ _ _ => False

def claims (env : Env) (j : ℕ) (s : State) : Action → Bool
  | .claim c j' => j' = j ∧ s.calls c = none ∧ ((step env s (.claim c j')).calls c).isSome
  | _ => false

/-- An attempt goes on under its lease, or while the job has not been claimed again. -/
def KeepsToLease (j : ℕ) (s : State) (a : Action) : Prop :=
  ∀ c reply call claim job, a = .step c reply → s.calls c = some call → call.claim = some claim →
    s.jobs.get j = some job → s.now < claim.leaseExpiresAt ∨ claim.attempt = job.attempt

/-- The states from which a drive leads to a verification or to a refusal. -/
def Op.leads : Op → RuntimeState → Bool
  | .provision, .degraded | .provision, .repairing | .provision, .stopping | .provision, .running => false
  | .provision, _ => true
  | .start, .stopped | .start, .stopping | .start, .starting | .start, .authenticating => true
  | .start, _ => false
  | .stop, _ | .deprovision, _ => true

/-- A drive reads a state from which it leads on, or finds the runtime verified, at its beginning and
after a reservation. -/
structure FindsWay (env : Env) (requireLogin : Bool) (s : State) (a : Action) : Prop where
  load : ∀ c reply call claim rest rt, a = .step c reply → s.calls c = some call →
    call.claim = some claim → call.tasks = .load :: rest →
    s.runtimes.get call.runtime = some rt → rt.cohort = .beta →
    claim.op.leads rt.state = true ∨ Verified env requireLogin s call.runtime
  reload : ∀ c reply call rest rt, a = .step c reply → s.calls c = some call →
    call.tasks = .reload :: rest → s.runtimes.get call.runtime = some rt →
    Op.provision.leads rt.state = true ∨ Verified env requireLogin s call.runtime

/-- The condition on a step. -/
structure InOrder (env : Env) (requireLogin : Bool) (j : ℕ) (s : State) (a : Action) : Prop where
  lease : KeepsToLease j s a
  way : FindsWay env requireLogin s a

/-! ### What comes after a task -/

inductive Next (env : Env) (s : State) (call : Call) (rest : List Task) (reply : Reply) :
    Task → Call → Prop
  | waits {task} : Next env s call rest reply task call
  | raised {task} (raised : Raised) :
      Next env s call rest reply task { call with tasks := call.afterRaise raised }
  | loaded {rt : AccountRuntime} {claim : Claim} (hget : s.runtimes.get call.runtime = some rt)
      (hcohort : rt.cohort = .beta) (hclaim : call.claim = some claim) :
      Next env s call rest reply .load
        { call with seen := rt.state, tasks := drive claim.op rt.state ++ rest }
  | reloaded {rt : AccountRuntime} (hget : s.runtimes.get call.runtime = some rt) :
      Next env s call rest reply .reload
        { call with seen := rt.state, tasks := driveProvisioned rt.state ++ rest }
  | passed (hheld : call.seen.held = true) :
      Next env s call rest reply .gate { call with tasks := rest }
  | verified {v : VerifyResult}
      (hchecks : verifyChecks reply.requireLogin (env.accounts call.runtime) v = .ok ()) :
      Next env s call rest reply .verify
        { call with tasks := .arrive v reply.requireLogin :: rest }
  | reserved {phase phase' : ReservePhase} :
      Next env s call rest reply (.reserve phase) { call with tasks := .reserve phase' :: rest }
  | done {task} (seen : RuntimeState) (hload : task ≠ .load) (hreload : task ≠ .reload)
      (hgate : task ≠ .gate) (hverify : task ≠ .verify) :
      Next env s call rest reply task { call with seen, tasks := rest }

structure After (env : Env) (s s' : State) (c : ℕ) (call : Call) (rest : List Task) (reply : Reply)
    (task : Task) : Prop where
  now : s'.now = s.now
  jobs : (∀ status error, task ≠ .finish status error) → s'.jobs = s.jobs
  next : ∀ call', s'.calls c = some call' → Next env s call rest reply task call'

section

variable {env : Env} {s s' : State} {c k : ℕ} {call call' : Call} {tasks rest : List Task}
  {reply : Reply} {task : Task}

/-- The gate lets nothing pass that holds no slot. -/
lemma held_of_allowed {seen : RuntimeState} (h : assertBetaActivationAllowed seen reply = .ok ()) :
    seen.held = true := by
  unfold assertBetaActivationAllowed at h
  split_ifs at h with _ _ hheld
  simpa using hheld

lemma after_goOn (hnow : s'.now = s.now) (hjobs : s'.jobs = s.jobs)
    (hnext : Next env s call rest reply task { call' with tasks }) :
    After env s (s'.goOn c call' tasks) c call rest reply task where
  now := hnow
  jobs _ := hjobs
  next call'' hcall := by
    simp only [State.goOn, State.setCall, Function.update_self, Option.some.injEq] at hcall
    exact hcall ▸ hnext

lemma after_endCall (hnow : s'.now = s.now) (hjobs : s'.jobs = s.jobs) :
    After env s (s'.endCall c) c call rest reply task where
  now := hnow
  jobs _ := hjobs
  next call' hcall := by
    simp [State.endCall] at hcall

lemma after_refl (hcall : s.calls c = some call) : After env s s c call rest reply task where
  now := rfl
  jobs _ := rfl
  next call' h := by
    obtain rfl := Option.some.inj (hcall.symm.trans h)
    exact .waits

lemma clock_recordTransition (s : State) (k : ℕ) (toState : RuntimeState) (eventType : EventType)
    (reasonCode detail : String) :
    (s.recordTransition k toState eventType reasonCode detail).now = s.now ∧
      (s.recordTransition k toState eventType reasonCode detail).jobs = s.jobs := by
  unfold State.recordTransition
  split <;> exact ⟨rfl, rfl⟩

lemma after_deny (reasonCode : String) :
    After env s (s.deny c call reasonCode) c call rest reply task := by
  unfold State.deny
  dsimp only
  refine after_goOn ?_ ?_ (.raised _)
  · simp only [State.unlock]
    split_ifs
    · exact (clock_recordTransition s _ _ _ _ _).1
    · rfl
  · simp only [State.unlock]
    split_ifs
    · exact (clock_recordTransition s _ _ _ _ _).2
    · rfl

lemma after_reserveStep (hcall : s.calls c = some call) (phase : ReservePhase) :
    After env s (s.reserveStep env c call rest reply phase) c call rest reply (.reserve phase) := by
  have hdone : Next env s call rest reply (.reserve phase) { call with tasks := rest } :=
    .done call.seen nofun nofun nofun nofun
  cases phase with
  | ensure =>
    simp only [State.reserveStep]
    split_ifs
    · exact after_goOn rfl rfl (.raised _)
    · exact after_goOn rfl rfl .reserved
  | lockCapacity =>
    simp only [State.reserveStep]
    split_ifs
    · exact after_goOn rfl rfl .reserved
    · exact after_refl hcall
  | lockRuntime =>
    simp only [State.reserveStep]
    split
    · exact after_endCall rfl rfl
    · split_ifs
      · exact after_refl hcall
      · exact after_goOn rfl rfl (.raised _)
      · exact after_goOn rfl rfl (.raised _)
      · exact after_goOn rfl rfl hdone
      · exact after_goOn rfl rfl .reserved
  | countUser =>
    simp only [State.reserveStep]
    split_ifs
    · exact after_deny _
    · exact after_deny _
    · exact after_goOn rfl rfl .reserved
  | countGlobal =>
    simp only [State.reserveStep]
    split_ifs
    · exact after_deny _
    · exact after_goOn rfl rfl .reserved
  | grant =>
    simp only [State.reserveStep]
    split_ifs
    · exact after_deny _
    · exact after_goOn (clock_recordTransition s _ _ _ _ _).1 (clock_recordTransition s _ _ _ _ _).2
        hdone

/-- **What a task leaves, and how its call goes on.** -/
theorem after_exec (env : Env) (hcall : s.calls c = some call) (rest : List Task) (reply : Reply)
    (task : Task) :
    After env s (s.exec env c call rest reply task) c call rest reply task := by
  cases task with
  | reserve phase => exact after_reserveStep hcall phase
  | transition toState reasonCode =>
    simp only [State.exec]
    split_ifs
    · exact after_goOn (clock_recordTransition s _ _ _ _ _).1 (clock_recordTransition s _ _ _ _ _).2
        (.done toState (by simp) (by simp) (by simp) (by simp))
    · exact after_refl hcall
  | failure reasonCode detail =>
    simp only [State.exec]
    split_ifs
    · exact after_goOn (clock_recordTransition s _ _ _ _ _).1 (clock_recordTransition s _ _ _ _ _).2
        (.done call.seen (by simp) (by simp) (by simp) (by simp))
    · exact after_refl hcall
  | arrive v requireLogin =>
    simp only [State.exec]
    split_ifs
    · exact after_goOn (clock_recordTransition s _ _ _ _ _).1 (clock_recordTransition s _ _ _ _ _).2
        (.done .running (by simp) (by simp) (by simp) (by simp))
    · exact after_refl hcall
  | quarantine reason =>
    simp only [State.exec]
    split_ifs
    · exact after_goOn rfl rfl (.done call.seen (by simp) (by simp) (by simp) (by simp))
    · exact after_refl hcall
  | clearQuarantine =>
    simp only [State.exec]
    split_ifs
    · exact after_goOn rfl rfl (.done call.seen (by simp) (by simp) (by simp) (by simp))
    · exact after_refl hcall
  | note reasonCode =>
    simp only [State.exec]
    split_ifs
    · exact after_goOn rfl rfl (.done call.seen (by simp) (by simp) (by simp) (by simp))
    · exact after_refl hcall
  | load =>
    simp only [State.exec]
    split
    next rt claim hget hclaim =>
      split_ifs with hcohort
      · exact after_goOn rfl rfl (.raised _)
      · exact after_goOn rfl rfl (.loaded hget (not_not.mp hcohort) hclaim)
    · exact after_endCall rfl rfl
  | reload =>
    simp only [State.exec]
    split
    next rt hget => exact after_goOn rfl rfl (.reloaded hget)
    · exact after_endCall rfl rfl
  | gate =>
    simp only [State.exec]
    split
    next hgate => exact after_goOn rfl rfl (.passed (held_of_allowed hgate))
    · exact after_goOn rfl rfl (.raised _)
  | remote reasonCode =>
    simp only [State.exec]
    split
    · exact after_goOn rfl rfl (.done call.seen (by simp) (by simp) (by simp) (by simp))
    · exact after_goOn rfl rfl (.raised _)
  | verify =>
    simp only [State.exec]
    split
    · exact after_goOn rfl rfl (.raised _)
    next v _ =>
      split
      · exact after_goOn rfl rfl (.raised _)
      next hchecks => exact after_goOn rfl rfl (.verified hchecks)
  | look =>
    simp only [State.exec]
    split
    next rt hget => exact after_goOn rfl rfl (.done rt.state (by simp) (by simp) (by simp) (by simp))
    · exact after_endCall rfl rfl
  | finish status error =>
    simp only [State.exec]
    split
    · exact
        { now := rfl
          jobs := fun h => absurd rfl (h status error)
          next := fun call' hcall' => by simp [State.endCall] at hcall' }
    · exact after_endCall rfl rfl

end

/-! ### The course of an attempt -/

/-- The tasks that bring the runtime to its verification, and what a reservation consists of. -/
def prepares : Task → Bool
  | .reserve _ | .gate | .transition _ _ | .remote _ => true
  | _ => false

/-- Tasks of a drive that verify the runtime before the job is done. -/
inductive Leading (env : Env) (requireLogin : Bool) (k : ℕ) : List Task → Prop
  | reload : Leading env requireLogin k [.reload, .finish .done ""]
  | verify : Leading env requireLogin k [.verify, .finish .done ""]
  | arrive {v : VerifyResult} {required : Bool} (hrunning : v.running = true)
      (hlogin : requireLogin = true → LoginMatches (env.accounts k) v) :
      Leading env requireLogin k [.arrive v required, .finish .done ""]
  | before {task : Task} {rest : List Task} (hprepares : prepares task = true)
      (h : Leading env requireLogin k rest) : Leading env requireLogin k (task :: rest)

def Fruitless (tasks : List Task) : Prop := ∀ error, Task.finish .done error ∉ tasks

/-- Where an attempt of a provisioning or a start can be. -/
inductive Course (env : Env) (requireLogin : Bool) (s : State) (call : Call) : List Task → Prop
  | fruitless {tasks} (h : Fruitless tasks) : Course env requireLogin s call tasks
  | loading : Course env requireLogin s call [.load, .finish .done ""]
  | leading {tasks} (h : Leading env requireLogin call.runtime tasks)
      (hrow : (s.runtimes.get call.runtime).isSome) : Course env requireLogin s call tasks
  | refused (h : call.seen.held = false) : Course env requireLogin s call [.gate, .finish .done ""]
  | gated (h : Verified env requireLogin s call.runtime) :
      Course env requireLogin s call [.gate, .finish .done ""]
  | verified (h : Verified env requireLogin s call.runtime) :
      Course env requireLogin s call [.finish .done ""]

section

variable {env : Env} {requireLogin : Bool} {s s' : State} {c k : ℕ} {call call' : Call}
  {tasks rest : List Task} {reply : Reply} {task : Task}

lemma Verified.congr (h : Verified env requireLogin s k) (hruntimes : s'.runtimes = s.runtimes)
    (hevents : s'.events = s.events) (hreports : s'.reports = s.reports) :
    Verified env requireLogin s' k := by
  obtain ⟨hrunning, report, hmem, hreport⟩ := h
  refine ⟨hruntimes ▸ hrunning, report, hreports ▸ hmem, ?_⟩
  exact ⟨hreport.runtime, hevents ▸ hreport.made, hevents ▸ hreport.since, hreport.evidence,
    hreport.login⟩

lemma Course.congr (h : Course env requireLogin s call tasks) (hruntimes : s'.runtimes = s.runtimes)
    (hevents : s'.events = s.events) (hreports : s'.reports = s.reports)
    (hruntime : call'.runtime = call.runtime) (hseen : call'.seen = call.seen) :
    Course env requireLogin s' call' tasks := by
  cases h with
  | fruitless h => exact .fruitless h
  | loading => exact .loading
  | leading h hrow => exact .leading (hruntime ▸ h) (by rw [hruntimes, hruntime]; exact hrow)
  | refused h => exact .refused (hseen ▸ h)
  | gated h => exact .gated (hruntime ▸ h.congr hruntimes hevents hreports)
  | verified h => exact .verified (hruntime ▸ h.congr hruntimes hevents hreports)

lemma fruitless_append (h : Fruitless tasks) (h' : Fruitless rest) : Fruitless (tasks ++ rest) := by
  intro error hmem
  rcases List.mem_append.mp hmem with hmem | hmem
  · exact h error hmem
  · exact h' error hmem

/-! What the driver does after an error, and the drives themselves, do not make the job done. -/

lemma fruitless_afterRaise (call : Call) (raised : Raised) : Fruitless (call.afterRaise raised) := by
  intro error
  unfold Call.afterRaise
  cases call.claim with
  | none => simp
  | some claim =>
    cases raised with
    | step e =>
      simp only [failStep]
      split_ifs <;> simp
    | denied reasonCode => simp
    | invalid => simp

lemma fruitless_driveProvisioned (state : RuntimeState) : Fruitless (driveProvisioned state) := by
  intro error
  cases state <;> simp [driveProvisioned, materialise, startAndVerify]

lemma fruitless_drive (op : Op) (state : RuntimeState) : Fruitless (drive op state) := by
  intro error
  cases op with
  | provision =>
    simp only [drive, driveProvision]
    split_ifs
    · simp
    · exact fruitless_driveProvisioned state error
  | start => cases state <;> simp [drive, driveStart, startAndVerify]
  | stop => cases state <;> simp [drive, driveStop, RuntimeState.held]
  | deprovision => cases state <;> simp [drive, driveDeprovision]

/-- An attempt that is not going to be done stays so. -/
lemma Fruitless.next (h : Fruitless (task :: rest)) (htasks : call.tasks = task :: rest)
    (hnext : Next env s call rest reply task call') : Fruitless call'.tasks := by
  have hrest : Fruitless rest := fun error hmem => h error (List.mem_cons_of_mem _ hmem)
  cases hnext with
  | waits => exact htasks ▸ h
  | raised raised => exact fruitless_afterRaise call raised
  | loaded => exact fruitless_append (fruitless_drive _ _) hrest
  | reloaded => exact fruitless_append (fruitless_driveProvisioned _) hrest
  | passed => exact hrest
  | verified =>
    intro error
    simp [hrest error]
  | reserved =>
    intro error
    simp [hrest error]
  | done => exact hrest

/-! The drives lead to a verification. -/

lemma leading_starting :
    Leading env requireLogin k (startAndVerify .starting ++ [.finish .done ""]) :=
  .before rfl (.before rfl .verify)

lemma leading_authenticating :
    Leading env requireLogin k (startAndVerify .authenticating ++ [.finish .done ""]) := .verify

lemma leading_materialise : Leading env requireLogin k (materialise ++ [.finish .done ""]) :=
  .before rfl (.before rfl (.before rfl leading_starting))

lemma course_driveProvisioned (call : Call) (hrow : (s.runtimes.get call.runtime).isSome)
    (hway : Op.provision.leads call.seen = true ∨ Verified env requireLogin s call.runtime) :
    Course env requireLogin s call (driveProvisioned call.seen ++ [.finish .done ""]) := by
  have hgate : (Op.provision.leads call.seen = true → call.seen.held = false) →
      Course env requireLogin s call [.gate, .finish .done ""] :=
    fun h => hway.elim (fun hleads => .refused (h hleads)) .gated
  revert hgate
  cases call.seen with
  | queued => exact fun _ => .leading (.before rfl (.before rfl leading_materialise)) hrow
  | provisioning => exact fun _ => .leading (.before rfl leading_materialise) hrow
  | starting => exact fun _ => .leading (.before rfl leading_starting) hrow
  | authenticating => exact fun _ => .leading (.before rfl leading_authenticating) hrow
  | _ => exact fun hgate => hgate (by decide)

lemma course_driveProvision (call : Call) (hrow : (s.runtimes.get call.runtime).isSome)
    (hway : Op.provision.leads call.seen = true ∨ Verified env requireLogin s call.runtime) :
    Course env requireLogin s call (driveProvision call.seen ++ [.finish .done ""]) := by
  unfold driveProvision
  split_ifs
  · exact .leading (.before rfl .reload) hrow
  · exact course_driveProvisioned call hrow hway

lemma course_driveStart (call : Call) (hrow : (s.runtimes.get call.runtime).isSome)
    (hway : Op.start.leads call.seen = true ∨ Verified env requireLogin s call.runtime) :
    Course env requireLogin s call (driveStart call.seen ++ [.finish .done ""]) := by
  have hnothing : ∀ state, Op.start.leads state = false →
      driveStart state = [] := by
    intro state h
    cases state <;> first | rfl | cases h
  by_cases hleads : Op.start.leads call.seen = true
  · generalize call.seen = state at hleads ⊢
    cases state with
    | stopped => exact .leading (.before rfl (.before rfl leading_starting)) hrow
    | stopping => exact .leading (.before rfl (.before rfl leading_starting)) hrow
    | starting => exact .leading (.before rfl leading_starting) hrow
    | authenticating => exact .leading (.before rfl leading_authenticating) hrow
    | _ => cases hleads
  · rw [hnothing call.seen (by simpa using hleads)]
    exact .verified (hway.resolve_left hleads)

def quiet : Task → Bool
  | .load | .reload | .gate | .remote _ | .verify => true
  | _ => false

lemma quiet_exec (env : Env) (s : State) (c : ℕ) (call : Call) (rest : List Task) (reply : Reply)
    (hquiet : quiet task = true) :
    (s.exec env c call rest reply task).runtimes = s.runtimes ∧
      (s.exec env c call rest reply task).events = s.events ∧
      (s.exec env c call rest reply task).reports = s.reports := by
  cases task with
  | load =>
    simp only [State.exec]
    split
    · split_ifs <;> exact ⟨rfl, rfl, rfl⟩
    · exact ⟨rfl, rfl, rfl⟩
  | reload =>
    simp only [State.exec]
    split <;> exact ⟨rfl, rfl, rfl⟩
  | gate =>
    simp only [State.exec]
    split <;> exact ⟨rfl, rfl, rfl⟩
  | remote reasonCode =>
    simp only [State.exec]
    split <;> exact ⟨rfl, rfl, rfl⟩
  | verify =>
    simp only [State.exec]
    split
    · exact ⟨rfl, rfl, rfl⟩
    · split <;> exact ⟨rfl, rfl, rfl⟩
  | _ => cases hquiet

lemma isSome_exec (env : Env) (c : ℕ) (rest : List Task) (reply : Reply) (task : Task)
    (h : (s.runtimes.get call.runtime).isSome) :
    ((s.exec env c call rest reply task).runtimes.get call.runtime).isSome := by
  have hrow : ∀ x y, RowStep (call.Reaches task) x y → x.1.isSome → y.1.isSome := by
    rintro _ _ (_ | _ | _ | _) hx
    · exact hx
    · rfl
    · rfl
    · rfl
  exact hrow _ _ (touches_exec env s c call rest reply task).row h

/-- The transition to `running` leaves a runtime with the report of this run. -/
lemma verified_recordRunning {v : VerifyResult} {required : Bool}
    (hrow : (s.runtimes.get k).isSome) (hrunning : v.running = true)
    (hlogin : requireLogin = true → LoginMatches (env.accounts k) v) :
    Verified env requireLogin (s.recordRunning env k v required) k := by
  obtain ⟨rt, hget⟩ := Option.isSome_iff_exists.mp hrow
  constructor
  · refine ⟨{ rt.moved .running "verified" with
      lastHeartbeatAt := some s.now, saves := rt.saves + 2 }, ?_, rfl⟩
    simp [State.recordRunning, State.recordTransition, hget, State.saveRuntime, AccountRuntime.moved]
  · refine ⟨_, List.mem_append_right _ List.mem_cons_self, rfl, ?_, ?_, hrunning, hlogin⟩
    · simp [State.recordRunning, State.recordTransition, hget, State.saveRuntime]
    · simp [State.recordRunning, State.recordTransition, hget, State.saveRuntime,
        AccountRuntime.moveEvent]

/-- **An attempt stays on its course.** -/
lemma Course.exec (h : Course env requireLogin s call (task :: rest)) (hcall : s.calls c = some call)
    (htasks : call.tasks = task :: rest) {claim : Claim} (hclaim : call.claim = some claim)
    (hop : claim.op = .provision ∨ claim.op = .start)
    (hreply : requireLogin = true → reply.requireLogin = true)
    (hway : FindsWay env requireLogin s (.step c reply))
    (hcall' : (s.exec env c call rest reply task).calls c = some call') :
    Course env requireLogin (s.exec env c call rest reply task) call' call'.tasks := by
  have hnext := (after_exec env hcall rest reply task).next call' hcall'
  have hraised : ∀ raised, Course env requireLogin (s.exec env c call rest reply task)
      { call with tasks := call.afterRaise raised } (call.afterRaise raised) :=
    fun raised => .fruitless (fruitless_afterRaise call raised)
  -- what has been read stays so under a task that only reads
  have hquiet : quiet task = true → ∀ {call₀ : Call} {tasks : List Task},
      Course env requireLogin s call₀ tasks →
        Course env requireLogin (s.exec env c call rest reply task) call₀ tasks := by
    intro hquiet call₀ tasks hcourse
    obtain ⟨hruntimes, hevents, hreports⟩ :=
      quiet_exec env s c call rest reply hquiet
    exact hcourse.congr hruntimes hevents hreports rfl rfl
  cases h with
  | fruitless h => exact .fruitless (h.next htasks hnext)
  | loading =>
    cases hnext with
    | waits => exact hquiet rfl (htasks ▸ .loading)
    | raised raised => exact hraised raised
    | @loaded rt claim' hget hcohort hclaim' =>
      obtain rfl := Option.some.inj (hclaim.symm.trans hclaim')
      have hleads := hway.load c reply call claim _ rt rfl hcall hclaim htasks hget hcohort
      refine hquiet rfl ?_
      have hrow : (s.runtimes.get call.runtime).isSome := by
        rw [hget]
        rfl
      rcases hop with hop | hop
      · rw [hop] at hleads ⊢
        exact course_driveProvision { call with seen := rt.state, tasks := _ } hrow hleads
      · rw [hop] at hleads ⊢
        exact course_driveStart { call with seen := rt.state, tasks := _ } hrow hleads
    | done _ hload => exact absurd rfl hload
  | leading h hrow =>
    have hrow' := isSome_exec env c rest reply task hrow
    cases h with
    | reload =>
      cases hnext with
      | waits => exact hquiet rfl (htasks ▸ .leading .reload hrow)
      | raised raised => exact hraised raised
      | @reloaded rt hget =>
        have hleads := hway.reload c reply call _ rt rfl hcall htasks hget
        exact hquiet rfl (course_driveProvisioned { call with seen := rt.state, tasks := _ }
          hrow hleads)
      | done _ _ hreload => exact absurd rfl hreload
    | verify =>
      cases hnext with
      | waits => exact hquiet rfl (htasks ▸ .leading .verify hrow)
      | raised raised => exact hraised raised
      | verified hchecks =>
        obtain ⟨hrunning, hlogin⟩ := of_verifyChecks hchecks
        exact .leading (.arrive hrunning fun h => hlogin (hreply h)) hrow'
      | done _ _ _ _ hverify => exact absurd rfl hverify
    | @arrive v required hrunning hlogin =>
      simp only [State.exec] at hcall' ⊢
      split_ifs at hcall' ⊢
      · simp only [State.goOn, State.setCall, Function.update_self, Option.some.injEq] at hcall'
        subst hcall'
        exact .verified ((verified_recordRunning hrow hrunning hlogin).congr rfl rfl rfl)
      · obtain rfl := Option.some.inj (hcall.symm.trans hcall')
        exact htasks ▸ .leading (.arrive hrunning hlogin) hrow
    | before hprepares h =>
      have hruntime : call'.runtime = call.runtime := by
        cases hnext <;> rfl
      cases hnext with
      | waits => exact htasks ▸ .leading (.before hprepares h) hrow'
      | raised raised => exact hraised raised
      | loaded => cases hprepares
      | reloaded => cases hprepares
      | passed => exact .leading h hrow'
      | verified => cases hprepares
      | reserved => exact .leading (.before rfl h) hrow'
      | done => exact .leading h hrow'
  | refused h =>
    cases hnext with
    | waits => exact hquiet rfl (htasks ▸ .refused h)
    | raised raised => exact hraised raised
    | passed hheld =>
      rw [h] at hheld
      cases hheld
    | done _ _ _ hgate => exact absurd rfl hgate
  | gated h =>
    cases hnext with
    | waits => exact hquiet rfl (htasks ▸ .gated h)
    | raised raised => exact hraised raised
    | passed => exact hquiet rfl (.verified h)
    | done _ _ _ hgate => exact absurd rfl hgate
  | verified h => simp [State.exec, hclaim, State.endCall] at hcall'

end

/-! ### The attempts of a job -/

structure Claimed (s : State) (j : ℕ) (job : ProvisioningJob) (call : Call) (claim : Claim) : Prop where
  claimed : call.claim = some claim
  ofJob : claim.job = j
  op : claim.op = job.op
  runtime : call.runtime = job.runtime
  attempt : claim.attempt ≤ job.attempt
  lease : s.now < claim.leaseExpiresAt → claim.attempt = job.attempt

/-- What is so of the call of the last claim, as long as it goes on. -/
structure OnCourse (env : Env) (requireLogin : Bool) (s : State) (job : ProvisioningJob) (call : Call)
    (claim : Claim) : Prop where
  status : job.status = .running
  lease : job.leaseExpiresAt = some claim.leaseExpiresAt
  course : job.op = .provision ∨ job.op = .start → Course env requireLogin s call call.tasks

/-- Every call has an attempt of its own, and the call of the last claim is on its course. -/
structure AttemptsFit (env : Env) (requireLogin : Bool) (j : ℕ) (s : State) : Prop where
  calls : ∀ c call, s.calls c = some call → ∃ claim job, s.jobs.get j = some job ∧
    Claimed s j job call claim ∧
    (claim.attempt = job.attempt → OnCourse env requireLogin s job call claim)
  distinct : ∀ c c' call call' claim claim', s.calls c = some call → s.calls c' = some call' →
    call.claim = some claim → call'.claim = some claim' → claim.attempt = claim'.attempt → c = c'

structure SameCall (call call' : Call) : Prop where
  runtime : call'.runtime = call.runtime
  claim : call'.claim = call.claim
  seen : call'.seen = call.seen
  tasks : call'.tasks = call.tasks

lemma SameCall.refl (call : Call) : SameCall call call := ⟨rfl, rfl, rfl, rfl⟩

section

variable {env : Env} {requireLogin : Bool} {s s' : State} {a : Action} {c j k : ℕ} {call call' : Call}
  {claim : Claim} {job job' : ProvisioningJob} {rest : List Task} {reply : Reply} {task : Task}

lemma AttemptsFit.of_sub (h : AttemptsFit env requireLogin j s) (hnow : s.now ≤ s'.now)
    (hjobs : s'.jobs = s.jobs) (hruntimes : s'.runtimes = s.runtimes) (hevents : s'.events = s.events)
    (hreports : s'.reports = s.reports)
    (hcalls : ∀ c call', s'.calls c = some call' →
      ∃ call, s.calls c = some call ∧ SameCall call call') : AttemptsFit env requireLogin j s' where
  calls c call' hcall' := by
    obtain ⟨call, hcall, hsame⟩ := hcalls c call' hcall'
    obtain ⟨claim, job, hjob, hclaimed, hcurrent⟩ := h.calls c call hcall
    refine ⟨claim, job, hjobs ▸ hjob, ?_, fun hattempt => ?_⟩
    · exact
        { claimed := hsame.claim.trans hclaimed.claimed
          ofJob := hclaimed.ofJob
          op := hclaimed.op
          runtime := hsame.runtime.trans hclaimed.runtime
          attempt := hclaimed.attempt
          lease := fun hlt => hclaimed.lease (lt_of_le_of_lt hnow hlt) }
    · obtain ⟨hstatus, hlease, hcourse⟩ := hcurrent hattempt
      refine ⟨hstatus, hlease, fun hop => ?_⟩
      rw [hsame.tasks]
      exact (hcourse hop).congr hruntimes hevents hreports hsame.runtime hsame.seen
  distinct c c' call call' claim claim' hcall hcall' hclaim hclaim' hattempt := by
    obtain ⟨call₀, hcall₀, hsame⟩ := hcalls c call hcall
    obtain ⟨call₁, hcall₁, hsame'⟩ := hcalls c' call' hcall'
    exact h.distinct c c' call₀ call₁ claim claim' hcall₀ hcall₁ (hsame.claim.symm.trans hclaim)
      (hsame'.claim.symm.trans hclaim') hattempt

lemma AttemptsFit.endCall (h : AttemptsFit env requireLogin j s) (c : ℕ) :
    AttemptsFit env requireLogin j (s.endCall c) := by
  refine h.of_sub le_rfl rfl rfl rfl rfl fun q call hcall => ⟨call, ?_, .refl call⟩
  by_cases hq : q = c
  · subst hq
    simp [State.endCall] at hcall
  · simpa [State.endCall, State.unlock, Function.update_of_ne hq] using hcall

lemma AttemptsFit.remember (h : AttemptsFit env requireLogin j s') (before : State) (c k : ℕ)
    (stopped : Bool) : AttemptsFit env requireLogin j (s'.remember before c k stopped) := by
  refine h.of_sub le_rfl rfl rfl rfl rfl fun q call hcall => ?_
  simp only [State.remember, Option.map_eq_some_iff] at hcall
  obtain ⟨call₀, hcall₀, rfl⟩ := hcall
  refine ⟨call₀, hcall₀, ?_⟩
  split_ifs <;> exact ⟨rfl, rfl, rfl, rfl⟩

lemma Claimed.outdated (h : Claimed s j job call claim)
    (hcurrent : claim.attempt = job.attempt → OnCourse env requireLogin s job call claim)
    (hfree : s.leased job = false) : ¬ s.now < claim.leaseExpiresAt := by
  intro hlt
  obtain ⟨hstatus, hlease, -⟩ := hcurrent (h.lease hlt)
  simp [State.leased, hstatus, hlease, hlt] at hfree

lemma Claimed.passed (h : Claimed s j job call claim) (hexpired : ¬ s.now < claim.leaseExpiresAt)
    (hnow : s'.now = s.now) (hop : job'.op = job.op) (hruntime : job'.runtime = job.runtime)
    (hattempt : job'.attempt = job.attempt + 1) :
    Claimed s' j job' call claim ∧ claim.attempt ≠ job'.attempt := by
  have hle := h.attempt
  refine ⟨?_, by omega⟩
  exact
    { claimed := h.claimed
      ofJob := h.ofJob
      op := h.op.trans hop.symm
      runtime := h.runtime.trans hruntime.symm
      attempt := by omega
      lease := fun hlt => absurd (hnow ▸ hlt) hexpired }

lemma AttemptsFit.of_claim (h : AttemptsFit env requireLogin j s) (job' : ProvisioningJob) (hjob : s.jobs.get j = some job)
    (hfree : s.leased job = false) (hjob' : s'.jobs.get j = some job') (hnow : s'.now = s.now)
    (hop : job'.op = job.op) (hruntime : job'.runtime = job.runtime)
    (hattempt : job'.attempt = job.attempt + 1)
    (hcalls : ∀ q call, s'.calls q = some call → s.calls q = some call ∨ q = c ∧
      ∃ claim, claim.attempt = job'.attempt ∧ Claimed s' j job' call claim ∧
        OnCourse env requireLogin s' job' call claim) : AttemptsFit env requireLogin j s' := by
  -- an attempt that was the last one is not so any more
  have hold : ∀ q call, s.calls q = some call → ∃ claim, Claimed s' j job' call claim ∧
      claim.attempt ≠ job'.attempt := by
    intro q call hcall
    obtain ⟨claim, job₀, hjob₀, hclaimed, hcurrent⟩ := h.calls q call hcall
    obtain rfl := Option.some.inj (hjob.symm.trans hjob₀)
    exact ⟨claim, hclaimed.passed (hclaimed.outdated hcurrent hfree) hnow hop hruntime hattempt⟩
  have hclaim : ∀ {call : Call} {claim claim' : Claim}, call.claim = some claim →
      call.claim = some claim' → claim = claim' :=
    fun h h' => Option.some.inj (h.symm.trans h')
  constructor
  · intro q call hcall
    rcases hcalls q call hcall with hcall | ⟨-, claim, -, hclaimed, hcourse⟩
    · obtain ⟨claim, hclaimed, hne⟩ := hold q call hcall
      exact ⟨claim, job', hjob', hclaimed, fun heq => absurd heq hne⟩
    · exact ⟨claim, job', hjob', hclaimed, fun _ => hcourse⟩
  · intro q q' call call' claim claim' hcall hcall' hq hq' heq
    rcases hcalls q call hcall with hcall | ⟨rfl, new, hnew, hclaimed, -⟩
    · rcases hcalls q' call' hcall' with hcall' | ⟨rfl, new, hnew, hclaimed, -⟩
      · exact h.distinct q q' call call' claim claim' hcall hcall' hq hq' heq
      · obtain ⟨old, holdClaim, hne⟩ := hold q call hcall
        rw [hclaim hq holdClaim.claimed, hclaim hq' hclaimed.claimed] at heq
        exact absurd (heq.trans hnew) hne
    · rcases hcalls q' call' hcall' with hcall' | ⟨rfl, -⟩
      · obtain ⟨old, holdClaim, hne⟩ := hold q' call' hcall'
        rw [hclaim hq hclaimed.claimed, hclaim hq' holdClaim.claimed] at heq
        exact absurd (heq.symm.trans hnew) hne
      · rfl

lemma AttemptsFit.claimJob (h : AttemptsFit env requireLogin j s) (c : ℕ) :
    AttemptsFit env requireLogin j (s.claimJob c j) := by
  unfold State.claimJob
  split
  next job hnone hjob =>
    split_ifs with hactive hexhausted hwrite
    · exact h
    · have hfree : s.leased job = false := by
        simp only [not_or, Bool.not_eq_true] at hactive
        exact hactive.2
      let exhausted : ProvisioningJob :=
        { job with
          status := .failed
          attempt := job.attempt + 1
          finishedAt := some s.now
          leaseExpiresAt := none
          lastError := "attempts_exhausted" }
      refine h.of_claim (c := c) exhausted hjob hfree ?_ ?_ rfl rfl rfl ?_
      · simp only [State.failRuntime]
        split_ifs
        · simp [(clock_recordTransition _ _ _ _ _ _).2, hjob, exhausted]
        · simp [hjob, exhausted]
      · simp only [State.failRuntime]
        split_ifs
        · exact (clock_recordTransition _ _ _ _ _ _).1
        · rfl
      · intro q call hcall
        left
        simp only [State.failRuntime] at hcall
        split_ifs at hcall
        · simpa using hcall
        · exact hcall
    · exact h
    · have hfree : s.leased job = false := by
        simp only [not_or, Bool.not_eq_true] at hactive
        exact hactive.2
      let begun : ProvisioningJob :=
        { job with
          status := .running
          attempt := job.attempt + 1
          startedAt := some (job.startedAt.getD s.now)
          leaseExpiresAt := some (s.now + leaseTtlSeconds) }
      refine h.of_claim (c := c) begun hjob hfree ?_ rfl rfl rfl rfl ?_
      · simp [State.setCall, hjob, begun]
      · intro q call hcall
        by_cases hq : q = c
        · subst hq
          right
          simp only [State.setCall, Function.update_self, Option.some.injEq] at hcall
          subst hcall
          refine ⟨rfl, _, rfl, ⟨rfl, rfl, rfl, rfl, le_rfl, fun _ => rfl⟩, rfl, rfl, fun _ => .loading⟩
        · left
          simpa [State.setCall, Function.update_of_ne hq] using hcall
  · exact h

lemma AttemptsFit.current (h : AttemptsFit env requireLogin j s)
    (hlease : KeepsToLease j s (.step c reply)) (hcall : s.calls c = some call) :
    ∃ claim job, s.jobs.get j = some job ∧ Claimed s j job call claim ∧ claim.attempt = job.attempt ∧
      OnCourse env requireLogin s job call claim := by
  obtain ⟨claim, job, hjob, hclaimed, hcurrent⟩ := h.calls c call hcall
  have hattempt : claim.attempt = job.attempt := by
    rcases hlease c reply call claim job rfl hcall hclaimed.claimed hjob with hlive | hsame
    · exact hclaimed.lease hlive
    · exact hsame
  exact ⟨claim, job, hjob, hclaimed, hattempt, hcurrent hattempt⟩

lemma AttemptsFit.other (h : AttemptsFit env requireLogin j s) (hcall : s.calls c = some call)
    (hclaim : call.claim = some claim) (hjob : s.jobs.get j = some job)
    (hattempt : claim.attempt = job.attempt) {q : ℕ} (hq : q ≠ c) {call' : Call}
    (hcall' : s.calls q = some call') :
    ∃ claim', Claimed s j job call' claim' ∧ claim'.attempt ≠ job.attempt := by
  obtain ⟨claim', job', hjob', hclaimed', -⟩ := h.calls q call' hcall'
  obtain rfl := Option.some.inj (hjob.symm.trans hjob')
  refine ⟨claim', hclaimed', fun hsame => hq ?_⟩
  exact h.distinct q c call' call claim' claim hcall' hcall hclaimed'.claimed hclaim
    (hsame.trans hattempt.symm)

lemma Claimed.congr (h : Claimed s j job call claim) (hnow : s'.now = s.now) (hop : job'.op = job.op)
    (hruntime : job'.runtime = job.runtime) (hattempt : job'.attempt = job.attempt)
    (hcall : call'.runtime = call.runtime ∧ call'.claim = call.claim) :
    Claimed s' j job' call' claim where
  claimed := hcall.2.trans h.claimed
  ofJob := h.ofJob
  op := h.op.trans hop.symm
  runtime := hcall.1.trans (h.runtime.trans hruntime.symm)
  attempt := hattempt ▸ h.attempt
  lease hlt := hattempt ▸ h.lease (hnow ▸ hlt)

/-- The last save of an attempt. -/
lemma finish_exec (env : Env) (c : ℕ) (rest : List Task) (reply : Reply) (hclaimed : Claimed s j job call claim)
    (hjob : s.jobs.get j = some job) (status : JobStatus) (error : String) :
    (s.exec env c call rest reply (.finish status error)).jobs.get j = some
      { job with
        status
        leaseExpiresAt := none
        finishedAt := if status = .queued then none else some s.now
        lastError := error } := by
  simp [State.exec, hclaimed.claimed, State.endCall, State.unlock, State.saveJob, hclaimed.ofJob, hjob]

lemma AttemptsFit.exec (h : AttemptsFit env requireLogin j s) (hcall : s.calls c = some call)
    (htasks : call.tasks = task :: rest) (horder : InOrder env requireLogin j s (.step c reply))
    (hreply : requireLogin = true → reply.requireLogin = true) :
    AttemptsFit env requireLogin j (s.exec env c call rest reply task) := by
  obtain ⟨claim, job, hjob, hclaimed, hattempt, hcourse⟩ := h.current horder.lease hcall
  have hafter := after_exec env hcall rest reply task
  have hgoes := goesOn_exec env hcall rest reply task
  -- the job is the same, or it has ended and so has the call
  have hjob' : ∃ job', (s.exec env c call rest reply task).jobs.get j = some job' ∧
      job'.op = job.op ∧ job'.runtime = job.runtime ∧ job'.attempt = job.attempt ∧
      (∀ call', (s.exec env c call rest reply task).calls c = some call' → job' = job) := by
    cases task with
    | finish status error =>
      refine ⟨_, finish_exec env c rest reply hclaimed hjob status error, rfl, rfl, rfl,
        fun call' hcall' => ?_⟩
      simp [State.exec, hclaimed.claimed, State.endCall] at hcall'
    | _ => exact ⟨job, by rw [hafter.jobs (by simp), hjob], rfl, rfl, rfl, fun _ _ => rfl⟩
  obtain ⟨job', hjob', hop, hruntime, hattempt', hsame⟩ := hjob'
  constructor
  · intro q call' hcall'
    by_cases hq : q = c
    · subst hq
      obtain rfl := hsame call' hcall'
      have hself := hgoes.self call' hcall'
      refine ⟨claim, job', hjob', hclaimed.congr hafter.now rfl rfl rfl ⟨hself.runtime, hself.claim⟩,
        fun _ => ⟨hcourse.status, hcourse.lease, fun hop' => ?_⟩⟩
      have hon := hcourse.course hop'
      rw [htasks] at hon
      exact hon.exec hcall htasks hclaimed.claimed (hclaimed.op ▸ hop') hreply horder.way hcall'
    · rw [hgoes.others q hq] at hcall'
      obtain ⟨claim', hclaimed', hne⟩ := h.other hcall hclaimed.claimed hjob hattempt hq hcall'
      exact ⟨claim', job', hjob', hclaimed'.congr hafter.now hop hruntime hattempt' ⟨rfl, rfl⟩,
        fun heq => absurd (heq.trans hattempt') hne⟩
  · have hold : ∀ q call', (s.exec env c call rest reply task).calls q = some call' →
        ∃ call₀, s.calls q = some call₀ ∧ call'.claim = call₀.claim := by
      intro q call' hcall'
      by_cases hq : q = c
      · subst hq
        exact ⟨call, hcall, (hgoes.self call' hcall').claim⟩
      · rw [hgoes.others q hq] at hcall'
        exact ⟨call', hcall', rfl⟩
    intro q q' call₁ call₂ claim₁ claim₂ hcall₁ hcall₂ hclaim₁ hclaim₂ heq
    obtain ⟨old₁, hold₁, hsame₁⟩ := hold q call₁ hcall₁
    obtain ⟨old₂, hold₂, hsame₂⟩ := hold q' call₂ hcall₂
    exact h.distinct q q' old₁ old₂ claim₁ claim₂ hold₁ hold₂ (hsame₁.symm.trans hclaim₁)
      (hsame₂.symm.trans hclaim₂) heq

/-- **What the attempts know is kept by every step in order.** -/
lemma AttemptsFit.step (h : AttemptsFit env requireLogin j s) (hof : OfJob requireLogin j a)
    (horder : InOrder env requireLogin j s a) : AttemptsFit env requireLogin j (step env s a) := by
  cases a with
  | tick seconds =>
    refine h.of_sub ?_ rfl rfl rfl rfl fun q call hcall => ⟨call, hcall, .refl call⟩
    show s.now ≤ s.now + (seconds : ℚ)
    have hseconds : (0 : ℚ) ≤ seconds := Nat.cast_nonneg seconds
    linarith
  | claim c j' =>
    obtain rfl : j' = j := hof
    exact h.claimJob c
  | step c reply =>
    simp only [TerminalProvisioning.step, stepNoted]
    cases hcall : s.calls c with
    | none => exact h
    | some call =>
      refine AttemptsFit.remember ?_ s c call.runtime _
      simp only [State.stepCall, hcall]
      split
      · exact h.endCall c
      next task rest htasks => exact h.exec hcall htasks horder hof
  | crash c => exact h.endCall c
  | enqueue k op => exact hof.elim
  | request c k request => exact hof.elim

/-! ### What a step keeps -/

lemma wellDriven_step (h : AttemptsFit env requireLogin j s)
    (horder : InOrder env requireLogin j s (.step c reply)) :
    WellDriven env requireLogin j s (.step c reply) := by
  have hidle : s.calls c = none → step env s (.step c reply) = s := by
    intro hcall
    simp [step, stepNoted, hcall]
  have hjobs : ∀ {call}, s.calls c = some call →
      (step env s (.step c reply)).jobs = (s.stepCall env c reply).jobs := by
    intro call hcall
    simp [step, stepNoted, hcall, State.remember]
  refine ⟨?_, fun _ _ ha => ?_, ?_, ?_⟩
  · intro job hjob hactive
    cases hcall : s.calls c with
    | none => rwa [hidle hcall]
    | some call =>
      obtain ⟨claim, job₀, hjob₀, -, -, hcourse⟩ := h.current horder.lease hcall
      obtain rfl := Option.some.inj (hjob.symm.trans hjob₀)
      rw [hcourse.status] at hactive
      cases hactive
  · cases ha
  · intro c' reply' call job ha hcall hjob hleased
    obtain ⟨rfl, rfl⟩ := Action.step.inj ha
    obtain ⟨claim, job₀, hjob₀, hclaimed, hattempt, hcourse⟩ := h.current horder.lease hcall
    obtain rfl := Option.some.inj (hjob.symm.trans hjob₀)
    refine ⟨⟨call, claim, hcall, hclaimed.claimed, hattempt, hcourse.lease⟩, ?_⟩
    intro q call' claim' hcall' hclaim' _ hattempt'
    exact h.distinct q c call' call claim' claim hcall' hcall hclaim' hclaimed.claimed
      (hattempt'.trans hattempt.symm)
  · intro job job' hjob hnot hjob' hdone hop
    cases hcall : s.calls c with
    | none =>
      rw [hidle hcall, hjob] at hjob'
      exact absurd (Option.some.inj hjob' ▸ hdone) hnot
    | some call =>
      obtain ⟨claim, job₀, hjob₀, hclaimed, -, hcourse⟩ := h.current horder.lease hcall
      obtain rfl := Option.some.inj (hjob.symm.trans hjob₀)
      rw [hjobs hcall] at hjob'
      cases htasks : call.tasks with
      | nil =>
        simp only [State.stepCall, hcall, htasks] at hjob'
        rw [show (s.endCall c).jobs = s.jobs from rfl, hjob] at hjob'
        exact absurd (Option.some.inj hjob' ▸ hdone) hnot
      | cons task rest =>
        have hexec : s.stepCall env c reply = s.exec env c call rest reply task := by
          simp [State.stepCall, hcall, htasks]
        rw [hexec] at hjob'
        by_cases hfinish : ∃ status error, task = .finish status error
        · obtain ⟨status, error, rfl⟩ := hfinish
          rw [finish_exec env c rest reply hclaimed hjob status error] at hjob'
          obtain rfl := Option.some.inj hjob'
          obtain rfl : status = .done := hdone
          -- the only course that ends so has verified the runtime
          have hverified : Verified env requireLogin s call.runtime := by
            have hon := hcourse.course hop
            rw [htasks] at hon
            cases hon with
            | fruitless h => exact absurd List.mem_cons_self (h error)
            | leading h => cases h with | before hprepares => cases hprepares
            | verified h => exact h
          rw [hclaimed.runtime] at hverified
          have hstep : step env s (.step c reply)
              = (s.exec env c call rest reply (.finish .done error)).remember s c call.runtime
                  (call.tasks.head?.any State.stops) := by
            simp [step, stepNoted, hcall, hexec]
          rw [hstep]
          refine hverified.congr ?_ ?_ ?_ <;>
            simp [State.remember, State.exec, hclaimed.claimed, State.endCall, State.unlock,
              State.saveJob]
        · have hsame := (after_exec env hcall rest reply task).jobs
            fun status error heq => hfinish ⟨status, error, heq⟩
          rw [hsame, hjob] at hjob'
          exact absurd (Option.some.inj hjob' ▸ hdone) hnot

lemma wellDriven_claim (env : Env) (requireLogin : Bool) (s : State) (c j : ℕ) :
    WellDriven env requireLogin j s (.claim c j) := by
  have hkeeps : ∀ job, s.jobs.get j = some job → (!job.status.active) = true ∨ s.leased job = true →
      s.claimJob c j = s := by
    intro job hjob h
    unfold State.claimJob
    split
    next job₀ _ hjob₀ =>
      obtain rfl := Option.some.inj (hjob.symm.trans hjob₀)
      rw [if_pos (by simpa using h)]
    · rfl
  refine ⟨?_, ?_, fun _ _ _ _ ha => ?_, ?_⟩
  · intro job hjob hactive
    rw [step, hkeeps job hjob (.inl (by simpa using hactive)), hjob]
  · intro c' job ha hjob hleased
    obtain ⟨rfl, -⟩ := Action.claim.inj ha
    rw [step, hkeeps job hjob (.inr hleased)]
  · cases ha
  · intro job job' hjob hnot hjob' hdone _
    exfalso
    simp only [step] at hjob'
    unfold State.claimJob at hjob'
    split at hjob'
    next job₀ hnone hjob₀ =>
      split_ifs at hjob'
      · rw [hjob] at hjob'
        exact hnot (Option.some.inj hjob' ▸ hdone)
      · simp only [State.failRuntime] at hjob'
        split_ifs at hjob'
        · simp only [(clock_recordTransition _ _ _ _ _ _).2, Table.get_modify_self, hjob,
            Option.map_some, Option.some.injEq] at hjob'
          subst hjob'
          cases hdone
        · simp only [Table.get_modify_self, hjob, Option.map_some, Option.some.injEq] at hjob'
          subst hjob'
          cases hdone
      · rw [hjob] at hjob'
        exact hnot (Option.some.inj hjob' ▸ hdone)
      · simp only [State.setCall, Table.get_modify_self, hjob, Option.map_some,
          Option.some.injEq] at hjob'
        subst hjob'
        cases hdone
    · rw [hjob] at hjob'
      exact hnot (Option.some.inj hjob' ▸ hdone)

lemma wellDriven_idle (hjobs : (step env s a).jobs = s.jobs) (hclaim : ∀ c j, a ≠ .claim c j)
    (hstep : ∀ c reply, a ≠ .step c reply) : WellDriven env requireLogin j s a where
  settled job hjob _ := by rw [hjobs, hjob]
  refused c job ha := absurd ha (hclaim c j)
  alone c reply _ _ ha := absurd ha (hstep c reply)
  verified job job' hjob hnot hjob' hdone := by
    rw [hjobs, hjob] at hjob'
    exact absurd (Option.some.inj hjob' ▸ hdone) hnot

lemma wellDriven_of_inOrder (h : AttemptsFit env requireLogin j s) (hof : OfJob requireLogin j a)
    (horder : InOrder env requireLogin j s a) : WellDriven env requireLogin j s a := by
  cases a with
  | tick seconds => exact wellDriven_idle rfl (fun _ _ ha => by cases ha) fun _ _ ha => by cases ha
  | claim c j' =>
    obtain rfl : j' = j := hof
    exact wellDriven_claim env requireLogin s c j'
  | step c reply => exact wellDriven_step h horder
  | crash c => exact wellDriven_idle rfl (fun _ _ ha => by cases ha) fun _ _ ha => by cases ha
  | enqueue k op => exact hof.elim
  | request c k request => exact hof.elim

/-! ### The number of claims -/

def attempts (j : ℕ) (jobs : Table ProvisioningJob) : ℕ := ((jobs.get j).map (·.attempt)).getD 0

lemma attempts_modify (jobs : Table ProvisioningJob) (j k : ℕ) {f : ProvisioningJob → ProvisioningJob}
    (hf : ∀ job, job.attempt ≤ (f job).attempt) : attempts j jobs ≤ attempts j (jobs.modify k f) := by
  rw [attempts, attempts, Table.get_modify]
  split_ifs with hk
  · subst hk
    cases jobs.get j with
    | none => exact le_rfl
    | some job => exact hf job
  · exact le_rfl

lemma attempts_exec (env : Env) (hcall : s.calls c = some call) (rest : List Task) (reply : Reply)
    (task : Task) : attempts j s.jobs ≤ attempts j (s.exec env c call rest reply task).jobs := by
  have hafter := after_exec env hcall rest reply task
  cases task with
  | finish status error =>
    simp only [State.exec]
    split
    · simp only [State.endCall, State.unlock, State.saveJob]
      exact attempts_modify _ _ _ fun _ => le_rfl
    · exact le_rfl
  | _ => rw [hafter.jobs (by simp)]

lemma attempts_le_step (env : Env) (j : ℕ) (s : State) (a : Action) :
    attempts j s.jobs ≤ attempts j (step env s a).jobs := by
  cases a with
  | tick seconds => exact le_rfl
  | enqueue k op =>
    simp only [step, State.enqueueOp]
    split_ifs
    · exact le_rfl
    · rw [attempts, attempts, Table.get_insert _ s.jobs.fresh_not_mem]
      split_ifs with hk
      · subst hk
        rw [Table.get_eq_none_iff.mpr s.jobs.fresh_not_mem]
        exact Nat.zero_le _
      · exact le_rfl
    · exact le_rfl
  | claim c j' =>
    simp only [step]
    unfold State.claimJob
    split
    next job _ _ =>
      split_ifs
      · exact le_rfl
      · unfold State.failRuntime
        split_ifs
        · rw [(clock_recordTransition _ _ _ _ _ _).2]
          exact attempts_modify _ _ _ fun job => Nat.le_succ job.attempt
        · exact attempts_modify _ _ _ fun job => Nat.le_succ job.attempt
      · exact le_rfl
      · simp only [State.setCall]
        exact attempts_modify _ _ _ fun job => Nat.le_succ job.attempt
    · exact le_rfl
  | request c k request =>
    simp only [step, State.beginRequest]
    split
    · split_ifs <;> exact le_rfl
    · split_ifs <;> exact le_rfl
    · exact le_rfl
  | step c reply =>
    simp only [step, stepNoted]
    cases hcall : s.calls c with
    | none => exact le_rfl
    | some call =>
      have hstep : attempts j s.jobs ≤ attempts j (s.stepCall env c reply).jobs := by
        simp only [State.stepCall, hcall]
        split
        · exact le_rfl
        · exact attempts_exec env hcall _ reply _
      exact hstep
  | crash c => exact le_rfl

lemma attempts_of_claims (hclaims : claims env j s a = true) :
    attempts j s.jobs < attempts j (step env s a).jobs ∧
      attempts j (step env s a).jobs ≤ maxAttempts := by
  cases a with
  | claim c j' =>
    simp only [claims, decide_eq_true_eq] at hclaims
    obtain ⟨rfl, hnone, hbegun⟩ := hclaims
    revert hbegun
    simp only [step]
    unfold State.claimJob
    split
    next job _ hjob =>
      split_ifs with hactive hexhausted hwrite
      · simp [hnone]
      · simp only [State.failRuntime]
        split_ifs
        · simp [hnone]
        · simp [hnone]
      · simp [hnone]
      · intro _
        simp only [attempts, State.setCall, Table.get_modify_self, hjob, Option.map_some,
          Option.getD_some]
        omega
    · simp [hnone]
  | _ => cases hclaims

end

/-! ### The runs of the workers of a job -/

section

variable {env : Env} {requireLogin : Bool} {s : State} {j : ℕ} {as : List Action}

end

/-! ### A job that is done without a runtime that runs -/

/-- One account of a demo server. -/
def jobEnv : Env where
  accounts := fun k =>
    { userId := k, accountNumber := "1001", brokerServer := none, brokerName := "Demo-1"
      isDemo := true, isActive := true, terminalNodeId := none }
  globalMaxActiveRuntimes := 1
  perUserMaxActiveRuntimes := fun _ => 1

def startJob (state : RuntimeState) : State :=
  { init with
    runtimes := Table.empty.insert 1 { cohort := .beta, state }
    jobs := Table.empty.insert 1 { runtime := 1, op := .start } }

/-- A worker that has outlived its lease queues the job again that another worker has brought to its
end. -/
example : ((run (step jobEnv) (startJob .stopped)
    (([.claim 10 1, .step 10 {}, .step 10 {}, .step 10 {}, .tick 1501, .claim 11 1] : List Action)
      ++ List.replicate 4 (Action.step 11 {})
      ++ List.replicate 3 (Action.step 11 { first := .ok { running := true } })
      ++ ([.step 10 { first := .error (.other "timed out") }] : List Action)
      ++ List.replicate 4 (Action.step 10 {}))).jobs.get 1).map (·.status) = some .queued := by
  decide +kernel

end TerminalProvisioning
end GuvFX
