/-
# The lifecycle of an erasure request over runs

Verifications, plans, approvals, holds, executions and workers interleave.  The invariant says of each status
which tasks there are, and of each worker that what it has locked is as it has seen it.

In every run, whatever became of a request before, its approval stands for a complete record of people who
are kept apart.
-/
import GuvFX.BrokerIntelligence.Erasure
import GuvFX.Lib.Runs
import Mathlib.Data.List.Dedup

namespace GuvFX
namespace BrokerIntelligence
namespace Erasure

open Runs

/-! ### One request -/

def ErasureRequest.people (req : ErasureRequest) : Option ℕ × Option ℕ × Option ℕ × Option ℕ :=
  (req.requestedBy, req.verifiedBy, req.approvedBy, req.assignedExecutor)

/-- The requester, the verifier and the approver are three people, and the executor is not the approver. -/
def Duties (req : ErasureRequest) : Prop :=
  ∃ requester verifier approver executor,
    req.people = (some requester, some verifier, some approver, some executor) ∧
      requester ≠ verifier ∧ requester ≠ approver ∧ verifier ≠ approver ∧ executor ≠ approver

def RequestStatus.isAdvanced : RequestStatus → Bool
  | .approved | .executed | .completed | .failed => true
  | _ => false

def RequestStatus.isExecuted : RequestStatus → Bool
  | .executed | .completed | .failed => true
  | _ => false

structure RequestInv (req : ErasureRequest) : Prop where
  verified : req.identityVerified = true →
    (∃ requester verifier, req.requestedBy = some requester ∧ req.verifiedBy = some verifier ∧
      requester ≠ verifier) ∧
    req.verifiedAt.isSome = true ∧ req.verificationMethod ∈ allowedVerificationMethods
  approved : req.approvedBy ≠ none → Duties req ∧ (req.status ≠ .requested ∧ req.status ≠ .planned) ∧
    req.identityVerified = true ∧ req.approvedAt.isSome = true
  advanced : req.status.isAdvanced = true → req.approvedBy ≠ none

structure Kept (req req' : ErasureRequest) : Prop where
  people : req.approvedBy ≠ none → req'.people = req.people
  executed : req.status = .executed → req'.status.isExecuted = true
  completed : req.status = .completed → req'.status = .completed
  failed : req.status = .failed → req'.status = .failed

section

variable {req req' : ErasureRequest}

lemma Kept.refl (req : ErasureRequest) : Kept req req :=
  ⟨fun _ => rfl, fun h => by rw [h]; rfl, id, id⟩

lemma Kept.trans {req₁ : ErasureRequest} (h₁ : Kept req req₁) (h₂ : Kept req₁ req') : Kept req req' where
  people h := by
    have hsame := h₁.people h
    have happroved : req₁.approvedBy = req.approvedBy := congrArg (fun people => people.2.2.1) hsame
    exact (h₂.people (happroved ▸ h)).trans hsame
  executed h := by
    match hstatus : req₁.status with
    | .executed => exact h₂.executed hstatus
    | .completed => rw [h₂.completed hstatus]; rfl
    | .failed => rw [h₂.failed hstatus]; rfl
    | .requested | .planned | .approved | .held | .cancelled =>
      have hnot := h₁.executed h
      rw [hstatus] at hnot
      cases hnot
  completed h := h₂.completed (h₁.completed h)
  failed h := h₂.failed (h₁.failed h)

lemma kept_of_not_advanced (happroved : req.approvedBy = none) (hstatus : req.status.isAdvanced = false) :
    Kept req req' where
  people h := absurd happroved h
  executed h := by rw [h] at hstatus; cases hstatus
  completed h := by rw [h] at hstatus; cases hstatus
  failed h := by rw [h] at hstatus; cases hstatus

/-! ### The operations on one request -/

lemma of_verifyIdentity {verifier : Option ℕ} {method : String} {now : ℤ}
    (h : verifyIdentity verifier method now req = .ok req') :
    (req.status = .requested ∨ req.status = .planned) ∧ ∃ requester person, verifier = some person ∧
      req.requestedBy = some requester ∧ requester ≠ person ∧ method ∈ allowedVerificationMethods ∧
      req' = { req with
        identityVerified := true
        verifiedBy := some person
        verifiedAt := some now
        verificationMethod := truncated 60 method } := by
  unfold verifyIdentity at h
  split at h
  · cases h
  next hstatus =>
    split at h
    · cases h
    next person =>
      split_ifs at h with hmethod hrequester hsame
      obtain ⟨requester, hrequester⟩ := Option.ne_none_iff_exists'.mp (mt Option.isNone_iff_eq_none.mpr hrequester)
      refine ⟨by tauto, requester, person, rfl, hrequester, ?_, hmethod, (Except.ok.inj h).symm⟩
      rintro rfl
      exact hsame hrequester.symm

lemma of_approveRequest {approver executor : Option ℕ} {ttl now : ℤ}
    (h : approveRequest approver executor ttl now req = .ok req') :
    req.status = .planned ∧ req.identityVerified = true ∧ ∃ a x, approver = some a ∧ executor = some x ∧
      req.requestedBy ≠ some a ∧ req.verifiedBy ≠ some a ∧ x ≠ a ∧
      req' = { req with
        approvedBy := some a
        assignedExecutor := some x
        approvedAt := some now
        approvalRevoked := false
        approvalExpiresAt := some (now + max 1 ttl)
        status := .approved } := by
  unfold approveRequest at h
  split_ifs at h with hstatus hverified happrover hexecutor hrequested hverifier hsame hsame' hself
  obtain ⟨a, rfl⟩ := Option.ne_none_iff_exists'.mp (mt Option.isNone_iff_eq_none.mpr happrover)
  obtain ⟨x, rfl⟩ := Option.ne_none_iff_exists'.mp (mt Option.isNone_iff_eq_none.mpr hexecutor)
  refine ⟨not_not.mp hstatus, Bool.eq_true_of_not_eq_false hverified, a, x, rfl, rfl, Ne.symm hsame,
    Ne.symm hsame', ?_, (Except.ok.inj h).symm⟩
  rintro rfl
  exact hself rfl

/-- A property of the rows that an operation returns and of the one that there was. -/
lemma unlessRefused_cases {P : ErasureRequest → Prop} {f : ErasureRequest → Except String ErasureRequest}
    (hrefused : P req) (hok : ∀ req', f req = .ok req' → P req') : P (unlessRefused f req) := by
  unfold unlessRefused
  split
  next req' h => exact hok req' h
  · exact hrefused

/-- No category is too long to be stored. -/
lemma truncated_of_mem : ∀ method ∈ allowedVerificationMethods, truncated 60 method = method := by
  decide

lemma RequestInv.verify (h : RequestInv req) (verifier : Option ℕ) (method : String) (now : ℤ) :
    RequestInv (unlessRefused (verifyIdentity verifier method now) req) ∧
      Kept req (unlessRefused (verifyIdentity verifier method now) req) ∧
      (unlessRefused (verifyIdentity verifier method now) req).status = req.status := by
  refine unlessRefused_cases (P := fun req' => RequestInv req' ∧ Kept req req' ∧ req'.status = req.status)
    ⟨h, .refl req, rfl⟩ fun req' hok => ?_
  obtain ⟨hstatus, requester, person, -, hrequester, hne, hmethod, rfl⟩ := of_verifyIdentity hok
  -- what is not approved yet has nobody to keep
  have hnone : req.approvedBy = none := by
    by_contra happroved
    obtain ⟨-, ⟨hnot, hnot'⟩, -⟩ := h.approved happroved
    exact hstatus.elim hnot hnot'
  have hstored : truncated 60 method ∈ allowedVerificationMethods := by
    rwa [truncated_of_mem method hmethod]
  refine ⟨⟨fun _ => ⟨⟨requester, person, hrequester, rfl, hne⟩, rfl, hstored⟩,
    fun happroved => absurd hnone happroved, h.advanced⟩, kept_of_not_advanced hnone ?_, rfl⟩
  rcases hstatus with hstatus | hstatus <;> rw [hstatus] <;> rfl

lemma RequestInv.approve (h : RequestInv req) (approver executor : Option ℕ) (ttl now : ℤ) :
    RequestInv (unlessRefused (approveRequest approver executor ttl now) req) ∧
      Kept req (unlessRefused (approveRequest approver executor ttl now) req) ∧
      ((unlessRefused (approveRequest approver executor ttl now) req).status = req.status ∨
        req.status.isExecuted = false ∧
          (unlessRefused (approveRequest approver executor ttl now) req).status = .approved) := by
  refine unlessRefused_cases
    (P := fun req' => RequestInv req' ∧ Kept req req' ∧
      (req'.status = req.status ∨ req.status.isExecuted = false ∧ req'.status = .approved))
    ⟨h, .refl req, .inl rfl⟩ fun req' hok => ?_
  obtain ⟨hstatus, hverified, a, x, -, -, hrequester, hverifier, hne, rfl⟩ := of_approveRequest hok
  obtain ⟨⟨requester, verifier, hrequested, hverifiedBy, hdistinct⟩, -⟩ := h.verified hverified
  have hnone : req.approvedBy = none := by
    by_contra happroved
    exact (h.approved happroved).2.1.2 hstatus
  have hduties : ∃ requester verifier approver executor, (req.requestedBy, req.verifiedBy, some a, some x) =
      (some requester, some verifier, some approver, some executor) ∧ requester ≠ verifier ∧
      requester ≠ approver ∧ verifier ≠ approver ∧ executor ≠ approver := by
    refine ⟨requester, verifier, a, x, by rw [hrequested, hverifiedBy], hdistinct, ?_, ?_, hne⟩
    · rintro rfl
      exact hrequester hrequested
    · rintro rfl
      exact hverifier hverifiedBy
  exact ⟨⟨h.verified, fun _ => ⟨hduties, ⟨nofun, nofun⟩, hverified, rfl⟩, fun _ => nofun⟩,
    kept_of_not_advanced hnone (by rw [hstatus]; rfl), .inr ⟨by rw [hstatus]; rfl, rfl⟩⟩

lemma RequestInv.plan (h : RequestInv req) (hnone : req.approvedBy = none) (token : String) (now : ℤ) :
    RequestInv (planRequest token now req) ∧ Kept req (planRequest token now req) ∧
      ((planRequest token now req).status = req.status ∨
        req.status.isExecuted = false ∧ (planRequest token now req).status = .planned) := by
  have hadvanced : req.status.isAdvanced = false := by
    by_contra hnot
    exact h.advanced (Bool.eq_true_of_not_eq_false hnot) hnone
  unfold planRequest
  split_ifs
  · refine ⟨⟨h.verified, fun happroved => absurd hnone happroved, nofun⟩,
      kept_of_not_advanced hnone hadvanced, .inr ⟨?_, rfl⟩⟩
    cases hstatus : req.status <;> rw [hstatus] at hadvanced <;> first | rfl | cases hadvanced
  · exact ⟨h, .refl req, .inl rfl⟩

lemma RequestInv.hold (h : RequestInv req) (hstatus : req.status.isExecuted = false) (reason : String) :
    RequestInv (markRequestHeld reason req) ∧ Kept req (markRequestHeld reason req) := by
  refine ⟨⟨h.verified, fun happroved =>
    ⟨(h.approved happroved).1, ⟨nofun, nofun⟩, (h.approved happroved).2.2⟩, nofun⟩, fun _ => rfl, ?_, ?_, ?_⟩
  all_goals
    intro heq
    rw [heq] at hstatus
    cases hstatus

end

/-! ### The tasks of a request -/

structure TaskInv (task : DeletionTask) : Prop where
  attempts : task.attempts ≤ maxDeletionAttempts
  retryable : task.isOpen = true → task.attempts < maxDeletionAttempts

def Settled (tasks : Table DeletionTask) (r : ℕ) : RequestStatus → Prop
  | .executed => ∃ k task, tasks.get k = some task ∧ task.request = r ∧ task.isOpen = true
  | .completed => ∀ k task, tasks.get k = some task → task.request = r → task.status = .completed
  | .failed => (∃ k task, tasks.get k = some task ∧ task.request = r ∧ task.status = .dead) ∧
      ∀ k task, tasks.get k = some task → task.request = r → task.isOpen = false
  | _ => ∀ k task, tasks.get k = some task → task.request ≠ r

def SameTasks (r : ℕ) (tasks tasks' : Table DeletionTask) : Prop :=
  ∀ k task, task.request = r → (tasks.get k = some task ↔ tasks'.get k = some task)

structure Attempted (task version : DeletionTask) : Prop where
  request : version.request = task.request
  inv : TaskInv version
  isOpen : task.isOpen = true

section

variable {tasks tasks' : Table DeletionTask} {r : ℕ} {status status' : RequestStatus}
  {req : ErasureRequest} {task : DeletionTask}

lemma settled_of_not_executed (h : Settled tasks r status) (hstatus : status.isExecuted = false) :
    ∀ k task, tasks.get k = some task → task.request ≠ r := by
  cases status <;> first | exact h | cases hstatus

lemma settled_of_none (h : ∀ k task, tasks.get k = some task → task.request ≠ r)
    (hstatus : status.isExecuted = false) : Settled tasks r status := by
  cases status <;> first | exact h | cases hstatus

lemma Settled.congr (h : Settled tasks r status) (hsame : SameTasks r tasks tasks') :
    Settled tasks' r status := by
  have hback : ∀ k task, tasks'.get k = some task → task.request = r → tasks.get k = some task :=
    fun k task hget hr => (hsame k task hr).mpr hget
  cases status with
  | executed =>
    obtain ⟨k, task, hget, hr, hopen⟩ := h
    exact ⟨k, task, (hsame k task hr).mp hget, hr, hopen⟩
  | completed => exact fun k task hget hr => h k task (hback k task hget hr) hr
  | failed =>
    obtain ⟨⟨k, task, hget, hr, hdead⟩, hclosed⟩ := h
    exact ⟨⟨k, task, (hsame k task hr).mp hget, hr, hdead⟩,
      fun k task hget hr => hclosed k task (hback k task hget hr) hr⟩
  | _ => exact fun k task hget hr => h k task (hback k task hget hr) hr

lemma Settled.executed_of_open {k : ℕ} (h : Settled tasks r status) (hget : tasks.get k = some task)
    (hr : task.request = r) (hopen : task.isOpen = true) : status = .executed := by
  cases status with
  | executed => rfl
  | completed =>
    have hdone := h k task hget hr
    rw [DeletionTask.isOpen, hdone] at hopen
    cases hopen
  | failed =>
    rw [h.2 k task hget hr] at hopen
    cases hopen
  | _ => exact absurd hr (h k task hget)

lemma attempted_attempted (removal : Removal) (now : ℤ) (h : TaskInv task) (hopen : task.isOpen = true) :
    Attempted task (attempted removal now task) := by
  have hless := h.retryable hopen
  refine ⟨?_, ?_, hopen⟩
  · cases removal <;> rfl
  · cases removal with
    | retained | removed | absent => exact ⟨hless, nofun⟩
    | raised error =>
      refine ⟨hless, fun hstill => ?_⟩
      simp only [attempted, DeletionTask.isOpen] at hstill ⊢
      split_ifs at hstill with hlast
      · cases hstill
      · exact not_le.mp hlast

lemma settled_drained (hstatus : req.status = .executed) : Settled tasks r (drained r tasks req).status := by
  unfold drained
  rw [if_neg (not_not.mpr hstatus)]
  split_ifs with hopen hdead
  · obtain ⟨⟨k, task⟩, hmem⟩ := List.exists_mem_of_ne_nil _ hopen
    obtain ⟨hget, hp⟩ := Table.mem_filter.mp hmem
    simp only [Bool.and_eq_true, decide_eq_true_eq] at hp
    rw [hstatus]
    exact ⟨k, task, hget, hp⟩
  · obtain ⟨⟨k, task⟩, hmem⟩ := List.exists_mem_of_ne_nil _ hdead
    obtain ⟨hget, hp⟩ := Table.mem_filter.mp hmem
    simp only [Bool.and_eq_true, decide_eq_true_eq] at hp
    refine ⟨⟨k, task, hget, hp⟩, fun j other hother hr => ?_⟩
    by_contra hstill
    have hmem : (j, other) ∈ tasks.filter fun _ task => task.request = r && task.isOpen :=
      Table.mem_filter.mpr ⟨hother, by simpa [hr] using hstill⟩
    rw [not_not.mp hopen] at hmem
    cases hmem
  · intro k task hget hr
    have hnot : ∀ p : DeletionTask → Bool,
        ¬ tasks.filter (fun _ task => task.request = r && p task) ≠ [] → p task = false := by
      intro p hnil
      by_contra hp
      have hmem : (k, task) ∈ tasks.filter fun _ task => task.request = r && p task :=
        Table.mem_filter.mpr ⟨hget, by simpa [hr] using hp⟩
      rw [not_not.mp hnil] at hmem
      cases hmem
    have hclosed := hnot DeletionTask.isOpen hopen
    have halive := hnot (fun task => task.status = .dead) hdead
    rw [DeletionTask.isOpen] at hclosed
    cases hcase : task.status <;> simp [hcase] at hclosed halive ⊢

lemma kept_drained : Kept req (drained r tasks req) := by
  unfold drained
  split_ifs with hstatus
  · exact .refl req
  · exact .refl req
  all_goals
    have hexecuted := not_not.mp hstatus
    exact ⟨fun _ => rfl, fun _ => rfl, fun h => absurd (hexecuted.symm.trans h) (by decide),
      fun h => absurd (hexecuted.symm.trans h) (by decide)⟩

lemma RequestInv.drained (h : RequestInv req) : RequestInv (drained r tasks req) := by
  unfold Erasure.drained
  split_ifs with hstatus
  · exact h
  · exact h
  all_goals
    have happroved := h.advanced (by rw [not_not.mp hstatus]; rfl)
    obtain ⟨hduties, -, hrest⟩ := h.approved happroved
    exact ⟨h.verified, fun _ => ⟨hduties, ⟨nofun, nofun⟩, hrest⟩, fun _ => happroved⟩

lemma drained_congr (hsame : SameTasks r tasks tasks') : drained r tasks req = drained r tasks' req := by
  have hnil : ∀ p : DeletionTask → Bool,
      tasks.filter (fun _ task => task.request = r && p task) ≠ [] ↔
        tasks'.filter (fun _ task => task.request = r && p task) ≠ [] := by
    intro p
    have hsub : ∀ {t t' : Table DeletionTask}, SameTasks r t t' →
        t.filter (fun _ task => task.request = r && p task) ≠ [] →
          t'.filter (fun _ task => task.request = r && p task) ≠ [] := by
      intro t t' hsame hne
      obtain ⟨⟨k, task⟩, hmem⟩ := List.exists_mem_of_ne_nil _ hne
      obtain ⟨hget, hp⟩ := Table.mem_filter.mp hmem
      have hr : task.request = r := by
        simp only [Bool.and_eq_true, decide_eq_true_eq] at hp
        exact hp.1
      exact List.ne_nil_of_mem (Table.mem_filter.mpr ⟨(hsame k task hr).mp hget, hp⟩)
    exact ⟨hsub hsame, hsub fun k task hr => (hsame k task hr).symm⟩
  unfold drained
  simp only [hnil]

end

/-! ### The tasks that the procedure enqueues -/

section

variable {tasks : Table DeletionTask} {r : ℕ}

def newTask (r : ℕ) (file : TaskKind × String) : DeletionTask where
  request := r
  kind := file.1
  targetRef := file.2

lemma enqueue_list (files : List (TaskKind × String)) (tasks : Table DeletionTask) :
    (∀ k task, tasks.get k = some task →
      (files.foldl (fun tasks file => tasks.insert tasks.fresh (newTask r file)) tasks).get k = some task) ∧
    ∀ k task, (files.foldl (fun tasks file => tasks.insert tasks.fresh (newTask r file)) tasks).get k =
      some task → tasks.get k = some task ∨ tasks.get k = none ∧ ∃ file, task = newTask r file := by
  induction files generalizing tasks with
  | nil => exact ⟨fun _ _ h => h, fun _ _ h => .inl h⟩
  | cons file files ih =>
    have hfresh := Table.fresh_not_mem tasks
    obtain ⟨hkeeps, hnew⟩ := ih (tasks.insert tasks.fresh (newTask r file))
    refine ⟨fun k task h => hkeeps k task (Table.get_insert_of_get hfresh h), fun k task h => ?_⟩
    rcases hnew k task h with hget | ⟨hnone, hfile⟩
    · rw [Table.get_insert _ hfresh] at hget
      split_ifs at hget with hk
      · exact .inr ⟨by rw [hk]; exact Table.get_eq_none_iff.mpr hfresh, file, (Option.some.inj hget).symm⟩
      · exact .inl hget
    · refine .inr ⟨?_, hfile⟩
      rw [Table.get_insert _ hfresh] at hnone
      split_ifs at hnone
      exact hnone

lemma enqueue_get (files : List (TaskKind × String)) (tasks : Table DeletionTask) :
    (∀ k task, tasks.get k = some task → (enqueue r files tasks).get k = some task) ∧
    ∀ k task, (enqueue r files tasks).get k = some task →
      tasks.get k = some task ∨ tasks.get k = none ∧ ∃ file, task = newTask r file :=
  enqueue_list files.dedup tasks

lemma exists_enqueue {files : List (TaskKind × String)} (hfiles : files ≠ []) :
    ∃ k task, (enqueue r files tasks).get k = some task ∧ task.request = r ∧ task.isOpen = true := by
  obtain ⟨file, rest, hcons⟩ := List.exists_cons_of_ne_nil (mt (List.dedup_eq_nil files).mp hfiles)
  have hfirst : (tasks.insert tasks.fresh (newTask r file)).get tasks.fresh = some (newTask r file) := by
    rw [Table.get_insert _ (Table.fresh_not_mem tasks), if_pos rfl]
  refine ⟨tasks.fresh, newTask r file, ?_, rfl, rfl⟩
  have hkeeps := (enqueue_list (r := r) rest (tasks.insert tasks.fresh (newTask r file))).1
  rw [enqueue, hcons]
  exact hkeeps _ _ hfirst

end

/-! ### The invariant of the system -/

/-- The invariant of a worker: what it has locked is as it has seen it. -/
structure WorkerInv (s : State) (w : ℕ) (worker : Worker) : Prop where
  todo : ∀ k ∈ worker.todo, s.taskLocks k = some w ∧ ∃ task, s.tasks.get k = some task ∧ task.isOpen = true
  done : ∀ e ∈ worker.done, s.taskLocks e.1 = some w ∧
    ∃ task, s.tasks.get e.1 = some task ∧ Attempted task e.2
  concluded : ∀ e ∈ worker.concluded, s.requestLocks e.1 = some w ∧ worker.touches e.1 = true ∧
    ∃ req, s.requests.get e.1 = some req ∧ e.2 = drained e.1 (s.tasks.overlay worker.done) req
  order : worker.concluded ≠ [] → worker.todo = []

structure Inv (s : State) : Prop where
  request : ∀ r req, s.requests.get r = some req → RequestInv req ∧ Settled s.tasks r req.status
  task : ∀ k task, s.tasks.get k = some task → TaskInv task ∧ task.request ∈ s.requests.keys
  worker : ∀ w worker, s.workers w = some worker → WorkerInv s w worker

def History (s s' : State) : Prop :=
  ∀ r req, s.requests.get r = some req → ∃ req', s'.requests.get r = some req' ∧ Kept req req'

instance : Std.Refl History := ⟨fun _ _ req h => ⟨req, h, .refl req⟩⟩

instance : IsTrans State History where
  trans _ _ _ h₁ h₂ := by
    intro r req hreq
    obtain ⟨req₁, hreq₁, hkept₁⟩ := h₁ r req hreq
    obtain ⟨req₂, hreq₂, hkept₂⟩ := h₂ r req₁ hreq₁
    exact ⟨req₂, hreq₂, hkept₁.trans hkept₂⟩

section

variable {s s' : State} {w r : ℕ} {worker : Worker}

lemma WorkerInv.frame (h : WorkerInv s w worker)
    (htasks : ∀ k task, s.taskLocks k = some w → s.tasks.get k = some task →
      s'.taskLocks k = some w ∧ s'.tasks.get k = some task)
    (hrequests : ∀ r req, s.requestLocks r = some w → s.requests.get r = some req →
      s'.requestLocks r = some w ∧ s'.requests.get r = some req ∧ SameTasks r s.tasks s'.tasks) :
    WorkerInv s' w worker where
  todo k hk := by
    obtain ⟨hlock, task, hget, hopen⟩ := h.todo k hk
    obtain ⟨hlock', hget'⟩ := htasks k task hlock hget
    exact ⟨hlock', task, hget', hopen⟩
  done e he := by
    obtain ⟨hlock, task, hget, hattempted⟩ := h.done e he
    obtain ⟨hlock', hget'⟩ := htasks e.1 task hlock hget
    exact ⟨hlock', task, hget', hattempted⟩
  concluded e he := by
    obtain ⟨hlock, htouches, req, hreq, hversion⟩ := h.concluded e he
    obtain ⟨hlock', hreq', hsame⟩ := hrequests e.1 req hlock hreq
    refine ⟨hlock', htouches, req, hreq', hversion.trans (drained_congr fun k task hr => ?_)⟩
    -- its own versions are the same, and of the others those of the request
    simp only [Table.get_overlay]
    cases hlookup : worker.done.lookup k with
    | none => simpa using hsame k task hr
    | some version =>
      obtain ⟨l₁, l₂, heq, -⟩ := List.lookup_eq_some_iff.mp hlookup
      obtain ⟨hlocked, old, hold, -⟩ := h.done (k, version) (by rw [heq]; simp)
      rw [hold, (htasks k old hlocked hold).2]
  order := h.order

lemma inv_writeRequest (h : Inv s) {f : ErasureRequest → ErasureRequest}
    (hf : ∀ req, s.requests.get r = some req →
      RequestInv (f req) ∧ Kept req (f req) ∧ Settled s.tasks r (f req).status) :
    Inv (s.writeRequest r f) ∧ History s (s.writeRequest r f) := by
  unfold State.writeRequest
  split
  next hfree =>
    constructor
    · constructor
      · intro r' req' hreq'
        simp only [Table.get_modify] at hreq'
        split_ifs at hreq' with hr
        · subst hr
          obtain ⟨req, hreq, rfl⟩ := Option.map_eq_some_iff.mp hreq'
          exact ⟨(hf req hreq).1, (hf req hreq).2.2⟩
        · exact h.request r' req' hreq'
      · simpa using h.task
      · intro w worker hworker
        refine (h.worker w worker hworker).frame (fun k task hlock hget => ⟨hlock, hget⟩)
          fun r' req hlock hreq => ⟨hlock, ?_, fun _ _ _ => Iff.rfl⟩
        have hr : r' ≠ r := by
          rintro rfl
          rw [hfree] at hlock
          cases hlock
        simp only [Table.get_modify_of_ne _ _ hr, hreq]
    · intro r' req hreq
      simp only [Table.get_modify]
      split_ifs with hr
      · subst hr
        exact ⟨f req, by rw [hreq]; rfl, (hf req hreq).2.1⟩
      · exact ⟨req, hreq, .refl req⟩
  · exact ⟨h, refl_of History s⟩

/-- The step condition: no hold after the execution, no plan after the approval, and something to delete. -/
def meets (s : State) : Action → Bool
  | .hold r _ => (s.requests.get r).all fun req => !req.status.isExecuted
  | .plan r _ _ => (s.requests.get r).all fun req => req.approvedBy.isNone
  | .execute _ _ files _ => files ≠ []
  | _ => true

lemma inv_execute {executor : ℕ} {files : List (TaskKind × String)} {now : ℤ} (h : Inv s)
    (hfiles : files ≠ []) :
    Inv (execute r executor files now s) ∧ History s (execute r executor files now s) := by
  unfold execute
  split
  next req hreq hfree =>
    split_ifs with hstatus
    · obtain ⟨hinv, hsettled⟩ := h.request r req hreq
      have happroved := hinv.advanced (by rw [hstatus]; rfl)
      obtain ⟨hkeeps, hnew⟩ := enqueue_get (r := r) files s.tasks
      have hothers : ∀ r', r' ≠ r → SameTasks r' s.tasks (enqueue r files s.tasks) := by
        intro r' hr k task hrequest
        refine ⟨hkeeps k task, fun hget => (hnew k task hget).resolve_right ?_⟩
        rintro ⟨-, file, rfl⟩
        exact hr hrequest.symm
      constructor
      · constructor
        · intro r' req' hreq'
          simp only [Table.get_modify] at hreq'
          split_ifs at hreq' with hr
          · subst hr
            rw [hreq] at hreq'
            cases hreq'
            obtain ⟨hduties, -, hrest⟩ := hinv.approved happroved
            exact ⟨⟨hinv.verified, fun _ => ⟨hduties, ⟨nofun, nofun⟩, hrest⟩, fun _ => happroved⟩,
              exists_enqueue hfiles⟩
          · obtain ⟨hinv', hsettled'⟩ := h.request r' req' hreq'
            exact ⟨hinv', hsettled'.congr (hothers r' hr)⟩
        · intro k task hget
          simp only [Table.keys_modify]
          rcases hnew k task hget with hold | ⟨-, file, rfl⟩
          · exact h.task k task hold
          · exact ⟨⟨Nat.zero_le _, fun _ => Nat.zero_lt_succ 4⟩, Table.mem_keys_of_get hreq⟩
        · intro w worker hworker
          refine (h.worker w worker hworker).frame (fun k task hlock hget => ⟨hlock, hkeeps k task hget⟩)
            fun r' req' hlock hreq' => ?_
          have hr : r' ≠ r := by
            rintro rfl
            rw [hfree] at hlock
            cases hlock
          exact ⟨hlock, by simp only [Table.get_modify_of_ne _ _ hr, hreq'], hothers r' hr⟩
      · intro r' req' hreq'
        simp only [Table.get_modify]
        split_ifs with hr
        · subst hr
          obtain rfl := Option.some.inj (hreq.symm.trans hreq')
          let executed : ErasureRequest :=
            { req with
              status := .executed
              executedAt := some now
              executedBy := some executor }
          exact ⟨executed, by rw [hreq]; rfl, fun _ => rfl, fun _ => rfl,
            fun heq => absurd (hstatus.symm.trans heq) (by decide),
            fun heq => absurd (hstatus.symm.trans heq) (by decide)⟩
        · exact ⟨req', hreq', .refl req'⟩
    · exact ⟨h, refl_of History s⟩
  · exact ⟨h, refl_of History s⟩

/-! ### The steps of a worker -/

lemma inv_setWorker (h : Inv s) {worker : Worker} (hworker : WorkerInv s w worker) :
    Inv (s.setWorker w (some worker)) where
  request := h.request
  task := h.task
  worker w' worker' hget := by
    have hsame : WorkerInv s w' worker' := by
      simp only [State.setWorker] at hget
      by_cases hw : w' = w
      · subst hw
        rw [Function.update_self] at hget
        obtain rfl := Option.some.inj hget
        exact hworker
      · rw [Function.update_of_ne hw] at hget
        exact h.worker w' worker' hget
    exact ⟨hsame.todo, hsame.done, hsame.concluded, hsame.order⟩

lemma mem_claimable {limit k : ℕ} (hk : k ∈ claimable limit s) :
    s.taskLocks k = none ∧ ∃ task, s.tasks.get k = some task ∧ task.isOpen = true := by
  have hmem := (List.mem_insertionSort _).mp (List.mem_of_mem_take hk)
  obtain ⟨⟨k', task⟩, hfilter, rfl⟩ := List.mem_map.mp hmem
  obtain ⟨hget, hp⟩ := Table.mem_filter.mp hfilter
  simp only [Bool.and_eq_true, Option.isNone_iff_eq_none] at hp
  exact ⟨hp.2, task, hget, hp.1⟩

lemma inv_claim {limit : ℕ} (h : Inv s) (hidle : s.workers w = none) : Inv (step s (.claim w limit)) := by
  simp only [step, hidle]
  refine ⟨h.request, h.task, fun w' worker' hget => ?_⟩
  by_cases hw : w' = w
  · subst hw
    simp only [Function.update_self] at hget
    obtain rfl := Option.some.inj hget
    exact ⟨fun k hk => ⟨if_pos hk, (mem_claimable hk).2⟩, fun _ he => absurd he List.not_mem_nil,
      fun _ he => absurd he List.not_mem_nil, fun hne => absurd rfl hne⟩
  · simp only [Function.update_of_ne hw] at hget
    refine (h.worker w' worker' hget).frame (fun k task hlock htask => ⟨?_, htask⟩)
      fun r req hlock hreq => ⟨hlock, hreq, fun _ _ _ => Iff.rfl⟩
    have hk : k ∉ claimable limit s := by
      intro hk
      rw [(mem_claimable hk).1] at hlock
      cases hlock
    exact (if_neg hk).trans hlock

lemma inv_attempt {removal : Removal} {now : ℤ} (h : Inv s) : Inv (step s (.attempt w removal now)) := by
  simp only [step]
  split
  next k todo done concluded hworker =>
    split
    next task hget =>
      have hinv := h.worker w _ hworker
      obtain ⟨hlock, task', hget', hopen⟩ := hinv.todo k List.mem_cons_self
      obtain rfl := Option.some.inj (hget.symm.trans hget')
      -- nothing has been looked at before all has been attempted
      have hnone : concluded = [] := by
        by_contra hne
        exact List.cons_ne_nil _ _ (hinv.order hne)
      subst hnone
      refine inv_setWorker h ⟨fun j hj => hinv.todo j (List.mem_cons_of_mem k hj), fun e he => ?_,
        fun _ he => absurd he List.not_mem_nil, fun hne => absurd rfl hne⟩
      rcases List.mem_append.mp he with hold | hnew
      · exact hinv.done e hold
      · obtain rfl := List.mem_singleton.mp hnew
        exact ⟨hlock, task, hget, attempted_attempted removal now (h.task k task hget).1 hopen⟩
    · exact h
  · exact h

lemma inv_conclude (h : Inv s) : Inv (step s (.conclude w r)) := by
  simp only [step]
  split
  next worker req hworker hreq =>
    split_ifs with hready
    · obtain ⟨htodo, htouches, hfree⟩ := hready
      have hinv := h.worker w worker hworker
      have hlocks : ∀ w' r', s.requestLocks r' = some w' → s.requestLocks.take r w r' = some w' := by
        intro w' r' hlock
        have hr : r' ≠ r := by
          rintro rfl
          rw [hfree] at hlock
          cases hlock
        rw [Locks.take, Function.update_of_ne hr, hlock]
      refine ⟨h.request, h.task, fun w' worker' hget => ?_⟩
      by_cases hw : w' = w
      · subst hw
        simp only [Function.update_self] at hget
        obtain rfl := Option.some.inj hget
        refine ⟨hinv.todo, hinv.done, fun e he => ?_, fun _ => htodo⟩
        rcases List.mem_append.mp he with hold | hnew
        · obtain ⟨hlock, hrest⟩ := hinv.concluded e hold
          exact ⟨hlocks _ _ hlock, hrest⟩
        · obtain rfl := List.mem_singleton.mp hnew
          exact ⟨Function.update_self .., htouches, req, hreq, rfl⟩
      · simp only [Function.update_of_ne hw] at hget
        exact (h.worker w' worker' hget).frame (fun k task hlock htask => ⟨hlock, htask⟩)
          fun r' req' hlock hreq' => ⟨hlocks _ _ hlock, hreq', fun _ _ _ => Iff.rfl⟩
    · exact h
  · exact h

lemma release_of_ne {locks : Locks ℕ} {k w' : ℕ} (hlock : locks k = some w') (hw : w' ≠ w) :
    locks.release w k = some w' := by
  have hne : locks k ≠ some w := by
    rw [hlock]
    exact fun heq => hw (Option.some.inj heq)
  rw [Locks.release, if_neg hne, hlock]

lemma inv_abort (h : Inv s) : Inv (s.finish w) := by
  refine ⟨h.request, h.task, fun w' worker' hget => ?_⟩
  simp only [State.finish] at hget
  by_cases hw : w' = w
  · subst hw
    rw [Function.update_self] at hget
    cases hget
  · rw [Function.update_of_ne hw] at hget
    exact (h.worker w' worker' hget).frame (fun k task hlock htask => ⟨release_of_ne hlock hw, htask⟩)
      fun r req hlock hreq => ⟨release_of_ne hlock hw, hreq, fun _ _ _ => Iff.rfl⟩

lemma sameTasks_of_not_concluded (hinv : WorkerInv s w worker)
    (hall : ∀ e ∈ worker.done, e.2.request ∈ worker.concluded.map Prod.fst)
    (hr : r ∉ worker.concluded.map Prod.fst) : SameTasks r s.tasks (s.tasks.overlay worker.done) := by
  intro k task hrequest
  rw [Table.get_overlay]
  cases hlookup : worker.done.lookup k with
  | none => simp
  | some version =>
    obtain ⟨l₁, l₂, heq, -⟩ := List.lookup_eq_some_iff.mp hlookup
    have hmem : (k, version) ∈ worker.done := by rw [heq]; simp
    obtain ⟨-, old, hold, hattempted⟩ := hinv.done (k, version) hmem
    have hother : version.request ≠ r := fun heq => hr (heq ▸ hall (k, version) hmem)
    -- neither the old nor the new row is one of the request
    rw [hold]
    constructor
    · rintro heq
      obtain rfl := Option.some.inj heq
      exact absurd (hattempted.request.trans hrequest) hother
    · rintro heq
      obtain rfl : version = task := Option.some.inj heq
      exact absurd hrequest hother

lemma mem_of_lookup {α : Type*} {versions : List (ℕ × α)} {k : ℕ} {version : α}
    (h : versions.lookup k = some version) : (k, version) ∈ versions := by
  obtain ⟨l₁, l₂, heq, -⟩ := List.lookup_eq_some_iff.mp h
  rw [heq]
  simp

lemma lookup_eq_none {α : Type*} {versions : List (ℕ × α)} {k : ℕ}
    (h : ∀ version, (k, version) ∉ versions) : versions.lookup k = none := by
  by_contra hne
  obtain ⟨version, hversion⟩ := Option.ne_none_iff_exists'.mp hne
  exact h version (mem_of_lookup hversion)

lemma commit_request (h : Inv s) (hworker : s.workers w = some worker)
    (hall : ∀ e ∈ worker.done, e.2.request ∈ worker.concluded.map Prod.fst) {req : ErasureRequest}
    (hreq : s.requests.get r = some req) :
    RequestInv ((worker.concluded.lookup r).getD req) ∧
      Settled (s.tasks.overlay worker.done) r ((worker.concluded.lookup r).getD req).status ∧
      Kept req ((worker.concluded.lookup r).getD req) := by
  have hinv := h.worker w worker hworker
  obtain ⟨hrequest, hsettled⟩ := h.request r req hreq
  cases hlookup : worker.concluded.lookup r with
  | none =>
    have hr : r ∉ worker.concluded.map Prod.fst := by
      intro hmem
      obtain ⟨e, he, rfl⟩ := List.mem_map.mp hmem
      have hne := List.lookup_eq_none_iff.mp hlookup e he
      simp at hne
    exact ⟨hrequest, hsettled.congr (sameTasks_of_not_concluded hinv hall hr), .refl req⟩
  | some version =>
    obtain ⟨-, htouches, found, hfound, hversion⟩ := hinv.concluded (r, version) (mem_of_lookup hlookup)
    obtain rfl := Option.some.inj (hreq.symm.trans hfound)
    obtain ⟨e, he, hr⟩ := List.any_eq_true.mp htouches
    obtain ⟨-, task, hget, hattempted⟩ := hinv.done e he
    -- a task of it was open before
    have hstatus : req.status = .executed := hsettled.executed_of_open hget
      (hattempted.request.symm.trans (of_decide_eq_true hr)) hattempted.isOpen
    obtain rfl : version = drained r (s.tasks.overlay worker.done) req := hversion
    exact ⟨hrequest.drained, settled_drained hstatus, kept_drained⟩

lemma inv_commit (h : Inv s) : Inv (step s (.commit w)) ∧ History s (step s (.commit w)) := by
  simp only [step]
  split
  next worker hworker =>
    split_ifs with hready
    · obtain ⟨-, hall⟩ := hready
      have hinv := h.worker w worker hworker
      constructor
      · constructor
        · intro r req' hreq'
          simp only [State.finish, Table.get_overlay] at hreq'
          obtain ⟨req, hreq, rfl⟩ := Option.map_eq_some_iff.mp hreq'
          obtain ⟨hrequest, hsettled, -⟩ := commit_request h hworker hall hreq
          exact ⟨hrequest, hsettled⟩
        · intro k task' hget'
          simp only [State.finish, Table.get_overlay] at hget'
          obtain ⟨task, hget, rfl⟩ := Option.map_eq_some_iff.mp hget'
          obtain ⟨htask, hkey⟩ := h.task k task hget
          obtain ⟨req, hreq⟩ := Table.get_of_mem_keys hkey
          have hkey' : task.request ∈ (s.requests.overlay worker.concluded).keys := by
            refine Table.mem_keys_of_get (v := (worker.concluded.lookup task.request).getD req) ?_
            rw [Table.get_overlay, hreq]
            rfl
          cases hlookup : worker.done.lookup k with
          | none => exact ⟨htask, hkey'⟩
          | some version =>
            obtain ⟨-, old, hold, hattempted⟩ := hinv.done (k, version) (mem_of_lookup hlookup)
            obtain rfl := Option.some.inj (hget.symm.trans hold)
            refine ⟨hattempted.inv, ?_⟩
            rw [Option.getD_some, hattempted.request]
            exact hkey'
        · intro w' worker' hworker'
          simp only [State.finish] at hworker'
          by_cases hw : w' = w
          · subst hw
            simp only [Function.update_self] at hworker'
            cases hworker'
          simp only [Function.update_of_ne hw] at hworker'
          refine (h.worker w' worker' hworker').frame (fun k task hlock hget => ⟨release_of_ne hlock hw, ?_⟩)
            fun r req hlock hreq => ⟨release_of_ne hlock hw, ?_, ?_⟩
          · have hnone : worker.done.lookup k = none := lookup_eq_none fun version hmem =>
              hw (Option.some.inj (hlock.symm.trans (hinv.done (k, version) hmem).1))
            simp [State.finish, hget, hnone]
          · have hnone : worker.concluded.lookup r = none := lookup_eq_none fun version hmem =>
              hw (Option.some.inj (hlock.symm.trans (hinv.concluded (r, version) hmem).1))
            simp [State.finish, hreq, hnone]
          · refine sameTasks_of_not_concluded hinv hall fun hmem => ?_
            obtain ⟨e, he, rfl⟩ := List.mem_map.mp hmem
            exact hw (Option.some.inj (hlock.symm.trans (hinv.concluded e he).1))
      · intro r req hreq
        refine ⟨(worker.concluded.lookup r).getD req, ?_, (commit_request h hworker hall hreq).2.2⟩
        simp [State.finish, hreq]
    · exact ⟨h, refl_of History s⟩
  · exact ⟨h, refl_of History s⟩

/-! ### Runs -/

lemma history_of_requests (h : s'.requests = s.requests) : History s s' :=
  fun _ req hreq => ⟨req, h ▸ hreq, .refl req⟩

lemma inv_create {subject : ℕ} {requestedBy : Option ℕ} (h : Inv s) :
    Inv (step s (.create subject requestedBy)) ∧ History s (step s (.create subject requestedBy)) := by
  have hfresh := Table.fresh_not_mem s.requests
  have hold : ∀ r req, s.requests.get r = some req →
      (step s (.create subject requestedBy)).requests.get r = some req := fun r req hreq =>
    Table.get_insert_of_get hfresh hreq
  constructor
  · constructor
    · intro r req hreq
      simp only [step] at hreq
      rw [Table.get_insert _ hfresh] at hreq
      split_ifs at hreq with hr
      · obtain rfl := Option.some.inj hreq
        subst hr
        exact ⟨⟨nofun, fun hne => absurd rfl hne, nofun⟩,
          fun k task hget heq => hfresh (heq ▸ (h.task k task hget).2)⟩
      · exact h.request r req hreq
    · intro k task hget
      obtain ⟨htask, hkey⟩ := h.task k task hget
      obtain ⟨req, hreq⟩ := Table.get_of_mem_keys hkey
      exact ⟨htask, Table.mem_keys_of_get (hold _ _ hreq)⟩
    · intro w worker hworker
      exact (h.worker w worker hworker).frame (fun k task hlock hget => ⟨hlock, hget⟩)
        fun r req hlock hreq => ⟨hlock, hold r req hreq, fun _ _ _ => Iff.rfl⟩
  · exact fun r req hreq => ⟨req, hold r req hreq, .refl req⟩

lemma inv_step (s : State) (a : Action) (h : Inv s) (hmeets : meets s a = true) :
    Inv (step s a) ∧ History s (step s a) := by
  cases a with
  | create subject requestedBy => exact inv_create h
  | verify r verifier method now =>
    refine inv_writeRequest h fun req hreq => ?_
    obtain ⟨hinv, hsettled⟩ := h.request r req hreq
    obtain ⟨hinv', hkept, hstatus⟩ := hinv.verify verifier method now
    exact ⟨hinv', hkept, hstatus ▸ hsettled⟩
  | plan r token now =>
    refine inv_writeRequest h fun req hreq => ?_
    obtain ⟨hinv, hsettled⟩ := h.request r req hreq
    have hnone : req.approvedBy = none := by simpa [meets, hreq] using hmeets
    obtain ⟨hinv', hkept, hstatus⟩ := hinv.plan hnone token now
    refine ⟨hinv', hkept, ?_⟩
    rcases hstatus with hsame | ⟨hbefore, hplanned⟩
    · exact hsame ▸ hsettled
    · rw [hplanned]
      exact settled_of_none (settled_of_not_executed hsettled hbefore) rfl
  | approve r approver executor ttl now =>
    refine inv_writeRequest h fun req hreq => ?_
    obtain ⟨hinv, hsettled⟩ := h.request r req hreq
    obtain ⟨hinv', hkept, hstatus⟩ := hinv.approve approver executor ttl now
    refine ⟨hinv', hkept, ?_⟩
    rcases hstatus with hsame | ⟨hbefore, happroved⟩
    · exact hsame ▸ hsettled
    · rw [happroved]
      exact settled_of_none (settled_of_not_executed hsettled hbefore) rfl
  | hold r reason =>
    refine inv_writeRequest h fun req hreq => ?_
    obtain ⟨hinv, hsettled⟩ := h.request r req hreq
    have hbefore : req.status.isExecuted = false := by simpa [meets, hreq] using hmeets
    obtain ⟨hinv', hkept⟩ := hinv.hold hbefore reason
    exact ⟨hinv', hkept, settled_of_none (settled_of_not_executed hsettled hbefore) rfl⟩
  | execute r executor files now => exact inv_execute h (of_decide_eq_true hmeets)
  | claim w limit =>
    cases hidle : s.workers w with
    | none => exact ⟨inv_claim h hidle, history_of_requests (by simp [step, hidle])⟩
    | some worker => exact ⟨by simpa [step, hidle] using h, history_of_requests (by simp [step, hidle])⟩
  | attempt w removal now =>
    refine ⟨inv_attempt h, history_of_requests ?_⟩
    simp only [step]
    split
    · split <;> rfl
    · rfl
  | conclude w r =>
    refine ⟨inv_conclude h, history_of_requests ?_⟩
    simp only [step]
    split
    · split_ifs <;> rfl
    · rfl
  | commit w => exact inv_commit h
  | abort w =>
    simp only [step]
    split
    · exact ⟨inv_abort h, history_of_requests rfl⟩
    · exact ⟨h, refl_of History s⟩

end

lemma inv_start : Inv {} where
  request r _ h := nomatch (h : Table.empty.get r = some _)
  task k _ h := nomatch (h : Table.empty.get k = some _)
  worker _ _ h := nomatch h

/-- In every run in which no request is held after its execution, none is planned again after its approval,
and every execution has something to delete: an approved request has three different people and an executor
who is not the approver, and they stay; completed requests have completed tasks and failed ones a dead task;
neither is left; no task is attempted too often; and an executed request whose tasks are all settled has
been completed or has failed. -/
theorem erasure_lifecycle (as : List Action) (has : StepsMeet step (fun s a => meets s a = true) {} as) :
    let s := run step {} as
    (∀ pre post, as = pre ++ post → ∀ r req, (run step {} pre).requests.get r = some req →
      ∃ req', s.requests.get r = some req' ∧
        (req.status = .approved → Duties req ∧ req'.people = req.people) ∧
        (req.status = .completed → req'.status = .completed) ∧
        (req.status = .failed → req'.status = .failed) ∧
        (req.status = .executed →
          (∀ k task, s.tasks.get k = some task → task.request = r →
            task.status = .completed ∨ task.status = .dead) →
          req'.status = .completed ∨ req'.status = .failed)) ∧
    (∀ r req, s.requests.get r = some req →
      (req.status = .completed →
        ∀ k task, s.tasks.get k = some task → task.request = r → task.status = .completed) ∧
      (req.status = .failed →
        ∃ k task, s.tasks.get k = some task ∧ task.request = r ∧ task.status = .dead)) ∧
    (∀ k task, s.tasks.get k = some task → task.attempts ≤ maxDeletionAttempts) := by
  intro s
  have hstep : ∀ s a, Inv s → meets s a = true → Inv (step s a) := fun s a hs hm => (inv_step s a hs hm).1
  have hinv : Inv s := run_invariant_of_meets hstep inv_start has
  refine ⟨fun pre post hsplit r req hreq => ?_, fun r req hreq => ?_, fun k task hget =>
    (hinv.task k task hget).1.attempts⟩
  · subst hsplit
    obtain ⟨hpre, hpost⟩ := stepsMeet_append.mp has
    have hbefore : Inv (run step {} pre) := run_invariant_of_meets hstep inv_start hpre
    have hhistory : History (run step {} pre) (run step (run step {} pre) post) :=
      run_rel_of_meets hstep (fun s a hs hm => (inv_step s a hs hm).2) hbefore hpost
    rw [← run_append] at hhistory
    obtain ⟨req', hreq', hkept⟩ := hhistory r req hreq
    refine ⟨req', hreq', fun happroved => ?_, hkept.completed, hkept.failed, fun hexecuted hdone => ?_⟩
    · have hrequest := (hbefore.request r req hreq).1
      have hsome := hrequest.advanced (by rw [happroved]; rfl)
      exact ⟨(hrequest.approved hsome).1, hkept.people hsome⟩
    · have hsettled := (hinv.request r req' hreq').2
      have hlater := hkept.executed hexecuted
      cases hstatus : req'.status with
      | completed => exact .inl rfl
      | failed => exact .inr rfl
      | executed =>
        rw [hstatus] at hsettled
        obtain ⟨k, task, hget, hr, hopen⟩ := hsettled
        rw [DeletionTask.isOpen] at hopen
        rcases hdone k task hget hr with hcase | hcase <;> simp [hcase] at hopen
      | _ =>
        rw [hstatus] at hlater
        cases hlater
  · have hsettled := (hinv.request r req hreq).2
    constructor
    · intro hstatus
      rw [hstatus] at hsettled
      exact hsettled
    · intro hstatus
      rw [hstatus] at hsettled
      exact hsettled.1

/-! ### The record of an approval -/

section

variable {req : ErasureRequest} {s : State}

/-- The records of a verification and of an approval are complete. -/
structure Vetted (req : ErasureRequest) : Prop where
  verified : req.identityVerified = true →
    (∃ requester verifier, req.requestedBy = some requester ∧ req.verifiedBy = some verifier ∧
      requester ≠ verifier) ∧
    req.verifiedAt.isSome = true ∧ req.verificationMethod ∈ allowedVerificationMethods
  approved : req.status = .approved → Duties req ∧ req.identityVerified = true ∧ req.approvedAt.isSome = true

lemma Vetted.verify (h : Vetted req) (verifier : Option ℕ) (method : String) (now : ℤ) :
    Vetted (unlessRefused (verifyIdentity verifier method now) req) := by
  refine unlessRefused_cases h fun req' hok => ?_
  obtain ⟨hstatus, requester, person, -, hrequester, hne, hmethod, rfl⟩ := of_verifyIdentity hok
  refine ⟨fun _ => ⟨⟨requester, person, hrequester, rfl, hne⟩, rfl, ?_⟩, fun happroved => ?_⟩
  · rwa [truncated_of_mem method hmethod]
  · rw [show req.status = .approved from happroved] at hstatus
    simp at hstatus

lemma Vetted.approve (h : Vetted req) (approver executor : Option ℕ) (ttl now : ℤ) :
    Vetted (unlessRefused (approveRequest approver executor ttl now) req) := by
  refine unlessRefused_cases h fun req' hok => ?_
  obtain ⟨-, hverified, a, x, -, -, hra, hva, hxa, rfl⟩ := of_approveRequest hok
  obtain ⟨⟨requester, verifier, hrequester, hverifier, hne⟩, -⟩ := h.verified hverified
  rw [hrequester] at hra
  rw [hverifier] at hva
  refine ⟨h.verified, fun _ => ⟨⟨requester, verifier, a, x, ?_, hne, mt (congrArg some) hra,
    mt (congrArg some) hva, hxa⟩, hverified, rfl⟩⟩
  simp [ErasureRequest.people, hrequester, hverifier]

/-- The invariant of the rows and of the versions that the workers are about to write. -/
structure AllVetted (s : State) : Prop where
  rows : ∀ r req, s.requests.get r = some req → Vetted req
  versions : ∀ w worker, s.workers w = some worker → ∀ e ∈ worker.concluded, Vetted e.2

lemma AllVetted.modify (h : AllVetted s) {r : ℕ} {f : ErasureRequest → ErasureRequest}
    (hf : ∀ req, Vetted req → Vetted (f req)) (r' : ℕ) (req' : ErasureRequest)
    (hget : (s.requests.modify r f).get r' = some req') : Vetted req' := by
  rw [Table.get_modify] at hget
  split_ifs at hget
  · obtain ⟨req, hreq, rfl⟩ := Option.map_eq_some_iff.mp hget
    exact hf req (h.rows _ req hreq)
  · exact h.rows r' req' hget

lemma AllVetted.writeRequest (h : AllVetted s) {r : ℕ} {f : ErasureRequest → ErasureRequest}
    (hf : ∀ req, Vetted req → Vetted (f req)) : AllVetted (s.writeRequest r f) := by
  unfold State.writeRequest
  split
  · exact ⟨h.modify hf, h.versions⟩
  · exact h

lemma AllVetted.update (h : AllVetted s) {w : ℕ} {worker : Option Worker}
    (hworker : ∀ v, worker = some v → ∀ e ∈ v.concluded, Vetted e.2) (w' : ℕ) (v : Worker)
    (hv : Function.update s.workers w worker w' = some v) : ∀ e ∈ v.concluded, Vetted e.2 := by
  by_cases hw : w' = w
  · subst hw
    exact hworker v (by rwa [Function.update_self] at hv)
  · rw [Function.update_of_ne hw] at hv
    exact h.versions w' v hv

lemma allVetted_step (h : AllVetted s) (a : Action) : AllVetted (step s a) := by
  cases a with
  | create subject requestedBy =>
    refine ⟨fun r req hreq => ?_, h.versions⟩
    rw [step, Table.get_insert _ (Table.fresh_not_mem _)] at hreq
    split_ifs at hreq
    · cases hreq
      exact ⟨nofun, nofun⟩
    · exact h.rows r req hreq
  | verify r verifier method now => exact h.writeRequest fun req hreq => hreq.verify verifier method now
  | plan r token now =>
    refine h.writeRequest fun req hreq => ?_
    unfold planRequest
    split
    · exact ⟨hreq.verified, nofun⟩
    · exact hreq
  | approve r approver executor ttl now => exact h.writeRequest fun req hreq => hreq.approve approver executor ttl now
  | hold r reason => exact h.writeRequest fun req hreq => ⟨hreq.verified, nofun⟩
  | execute r executor files now =>
    simp only [step, execute]
    split
    · split_ifs
      · exact ⟨h.modify fun req hreq => ⟨hreq.verified, nofun⟩, h.versions⟩
      · exact h
    · exact h
  | claim w limit =>
    simp only [step]
    split
    · exact h
    · exact ⟨h.rows, h.update (by rintro v ⟨⟩; simp)⟩
  | attempt w removal now =>
    simp only [step]
    split
    · rename_i hworker
      split
      · exact ⟨h.rows, h.update (by rintro v ⟨⟩ e he; exact h.versions w _ hworker e he)⟩
      · exact h
    · exact h
  | conclude w r =>
    simp only [step]
    split
    · rename_i worker req hworker hreq
      split_ifs
      · refine ⟨h.rows, h.update ?_⟩
        rintro v ⟨⟩ e he
        rcases List.mem_append.mp he with he | he
        · exact h.versions w worker hworker e he
        · have hrow := h.rows r req hreq
          rw [List.mem_singleton.mp he]
          -- a request is drained into an end, or stays
          unfold drained
          split_ifs
          iterate 2 exact hrow
          all_goals exact ⟨hrow.verified, nofun⟩
      · exact h
    · exact h
  | commit w =>
    simp only [step]
    split
    · rename_i worker hworker
      split_ifs
      · refine ⟨fun r req hreq => ?_, h.update nofun⟩
        simp only [State.finish, Table.get_overlay] at hreq
        obtain ⟨old, hold, rfl⟩ := Option.map_eq_some_iff.mp hreq
        cases hlookup : worker.concluded.lookup r with
        | none => exact h.rows r old hold
        | some version => exact h.versions w worker hworker _ (mem_of_lookup hlookup)
      · exact h
    · exact h
  | abort w =>
    simp only [step]
    split
    · exact ⟨h.rows, h.update nofun⟩
    · exact h

end

/-- **What an approval is worth.**  In every run the gate of the execution refuses an approved request only
because it is switched off or blocked, or because the approval is revoked or has run out. -/
theorem assertErasureAllowed_of_approved (as : List Action) (r : ℕ) (req : ErasureRequest)
    (hreq : (run step {} as).requests.get r = some req) (hstatus : req.status = .approved)
    (activeHold : ℕ → Bool) (now : ℤ) (hrevoked : req.approvalRevoked = false)
    (hexpired : req.approvalExpiresAt.any (· < now) = false) (hsubject : req.subjectUserIdSnapshot ≠ 0)
    (hhold : activeHold req.subjectUserIdSnapshot = false) :
    assertErasureAllowed true activeHold now req = .ok req.subjectUserIdSnapshot := by
  have hstart : AllVetted ({} : State) := ⟨by rintro r req ⟨⟩, by rintro w worker ⟨⟩⟩
  have hvetted := (run_invariant (P := AllVetted) (fun s a hs => allVetted_step hs a) hstart as).rows r req hreq
  obtain ⟨⟨requester, verifier, approver, executor, hpeople, hrv, hra, hva, hxa⟩, hverified, hat⟩ :=
    hvetted.approved hstatus
  obtain ⟨-, hverifiedAt, hmethod⟩ := hvetted.verified hverified
  simp only [ErasureRequest.people, Prod.mk.injEq] at hpeople
  obtain ⟨hrequestedBy, hverifiedBy, happrovedBy, hexecutor⟩ := hpeople
  have hsome : req.verifiedAt ≠ none := Option.isSome_iff_ne_none.mp hverifiedAt
  have hsome' : req.approvedAt ≠ none := Option.isSome_iff_ne_none.mp hat
  simp [assertErasureAllowed, hstatus, hverified, hrequestedBy, hverifiedBy, happrovedBy, hexecutor, hmethod,
    hrevoked, hexpired, hsubject, hhold, Ne.symm hrv, Ne.symm hra, Ne.symm hva, hxa, hsome, hsome']

/-! ### A run -/

/-- A request of operator 1 that is verified by 2, approved by 3 and executed by 4; its file is deleted. -/
def completedRun : List Action :=
  [.create 9 (some 1), .verify 1 (some 2) "video-call" 0, .plan 1 "token" 1, .approve 1 (some 3) (some 4) 60 2,
    .execute 1 4 [(.credentialFile, "ref")] 3, .claim 0 100, .attempt 0 .removed 4, .conclude 0 1, .commit 0]

/-- In that run the task of the completed request is completed. -/
theorem erasure_lifecycle_completedRun :
    ((run step {} completedRun).tasks.get 1).map (·.status) = some .completed := by
  have hstatus : ((run step {} completedRun).requests.get 1).map (·.status) = some .completed := by
    decide +kernel
  have hof : ((run step {} completedRun).tasks.get 1).map (·.request) = some 1 := by decide +kernel
  obtain ⟨req, hreq, hcompleted⟩ := Option.map_eq_some_iff.mp hstatus
  obtain ⟨task, htask, hrequest⟩ := Option.map_eq_some_iff.mp hof
  have hdone := ((erasure_lifecycle completedRun (by decide +kernel)).2.1 1 req hreq).1 hcompleted
    1 task htask hrequest
  rw [htask, Option.map_some, hdone]

/-- Before its execution the approved request of that run passes the gate. -/
theorem assertErasureAllowed_of_approved_completedRun :
    ((run step {} (completedRun.take 4)).requests.get 1).map (assertErasureAllowed true (fun _ => false) 5) =
      some (.ok 9) := by
  have hreq : ((run step {} (completedRun.take 4)).requests.get 1).map (fun req =>
      (req.status, req.approvalRevoked, req.approvalExpiresAt, req.subjectUserIdSnapshot)) =
        some (.approved, false, some 62, 9) := by decide +kernel
  obtain ⟨req, hget, heq⟩ := Option.map_eq_some_iff.mp hreq
  simp only [Prod.mk.injEq] at heq
  obtain ⟨hstatus, hrevoked, hexpires, hsubject⟩ := heq
  rw [hget, Option.map_some, assertErasureAllowed_of_approved _ 1 req hget hstatus _ 5 hrevoked
    (by simp [hexpires]) (by simp [hsubject]) rfl, hsubject]

/-- A completed request is left when it is held; and a request that has nothing to delete stays executed. -/
theorem not_erasure_lifecycle :
    (¬ ∀ (pre post : List Action) (r : ℕ) (req : ErasureRequest),
      (run step {} pre).requests.get r = some req → req.status = .completed →
        ∃ req', (run step {} (pre ++ post)).requests.get r = some req' ∧ req'.status = .completed) ∧
    (¬ ∀ (as : List Action) (r : ℕ) (req : ErasureRequest),
      (run step {} as).requests.get r = some req → req.executedAt.isSome = true →
        (∀ k task, (run step {} as).tasks.get k = some task → task.request = r →
          task.status = .completed ∨ task.status = .dead) →
        req.status = .completed ∨ req.status = .failed) := by
  constructor
  · intro h
    have hbefore : ((run step {} completedRun).requests.get 1).map (·.status) = some .completed := by
      decide +kernel
    obtain ⟨req, hreq, hstatus⟩ := Option.map_eq_some_iff.mp hbefore
    obtain ⟨req', hreq', hstatus'⟩ := h completedRun [.hold 1 "legal hold"] 1 req hreq hstatus
    have hafter : ((run step {} (completedRun ++ [.hold 1 "legal hold"])).requests.get 1).map (·.status) =
        some .held := by decide +kernel
    rw [hreq', Option.map_some, hstatus'] at hafter
    cases hafter
  · intro h
    let as : List Action :=
      [.create 9 (some 1), .verify 1 (some 2) "video-call" 0, .plan 1 "token" 1,
        .approve 1 (some 3) (some 4) 60 2, .execute 1 4 [] 3, .claim 0 100, .commit 0]
    have hafter : ((run step {} as).requests.get 1).map (fun req => (req.status, req.executedAt.isSome)) =
        some (.executed, true) := by decide +kernel
    obtain ⟨req, hreq, hstatus⟩ := Option.map_eq_some_iff.mp hafter
    simp only [Prod.mk.injEq] at hstatus
    have htasks : (run step {} as).tasks.rows = [] := by decide +kernel
    have hend := h as 1 req hreq hstatus.2 fun k task hget => by
      have hmem := Table.mem_rows_of_get hget
      rw [htasks] at hmem
      cases hmem
    rw [hstatus.1] at hend
    rcases hend with hend | hend <;> cases hend

end Erasure
end BrokerIntelligence
end GuvFX
