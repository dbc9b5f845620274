/-
# What a step does to a runtime

Every step of the system leaves a runtime as it is, creates it, moves it to another state with one event,
or saves other fields of its row.  The file says so once for all calls and tasks, with the state that a
task can move the runtime to.
-/
import GuvFX.TerminalProvisioning.Provisioner

namespace GuvFX
namespace TerminalProvisioning

namespace State

def runtime (s : State) (k : ℕ) : Option AccountRuntime × List RuntimeEvent :=
  (s.runtimes.get k, s.events k)

variable {s : State} {c k : ℕ} {call : Call} {tasks : List Task}

@[simp] lemma runtime_setCall : (s.setCall c call).runtime = s.runtime := rfl

@[simp] lemma runtime_goOn : (s.goOn c call tasks).runtime = s.runtime := rfl

@[simp] lemma runtime_unlock : (s.unlock c).runtime = s.runtime := rfl

@[simp] lemma runtime_endCall : (s.endCall c).runtime = s.runtime := rfl

@[simp] lemma runtime_saveJob {j : ℕ} {status : JobStatus} {error : String} :
    (s.saveJob j status error).runtime = s.runtime := rfl

@[simp] lemma runtime_remember {before : State} {stopped : Bool} :
    (s.remember before c k stopped).runtime = s.runtime := rfl

end State

/-- What a step does to one runtime, the row and the events; `can` are the states that it can move the
runtime to. -/
inductive RowStep (can : RuntimeState → Prop) : Option AccountRuntime × List RuntimeEvent →
    Option AccountRuntime × List RuntimeEvent → Prop
  | same (x) : RowStep can x x
  | created (events) : RowStep can (none, events) (some { cohort := .beta }, events)
  | moved {rt rt' : AccountRuntime} {events : List RuntimeEvent} {e : RuntimeEvent}
      (hcohort : rt'.cohort = rt.cohort) (hquarantined : rt'.quarantined = rt.quarantined)
      (hsaves : rt.saves < rt'.saves) (hfrom : e.fromState = rt.state)
      (hevent : e.toState = rt'.state) (hcan : can rt'.state) :
      RowStep can (some rt, events) (some rt', events ++ [e])
  | saved {rt rt' : AccountRuntime} {events : List RuntimeEvent}
      (hcohort : rt'.cohort = rt.cohort) (hstate : rt'.state = rt.state)
      (hsaves : rt.saves < rt'.saves) : RowStep can (some rt, events) (some rt', events)

/-- A step touches the runtime `k` only. -/
structure Touches (s s' : State) (k : ℕ) (can : RuntimeState → Prop) : Prop where
  others : ∀ k', k' ≠ k → s'.runtime k' = s.runtime k'
  row : RowStep can (s.runtime k) (s'.runtime k)

def Call.target (call : Call) : Task → Option RuntimeState
  | .transition toState _ => some toState
  | .arrive _ _ => some .running
  | .failure _ _ => some call.seen
  | .reserve .grant => some .queued
  | _ => none

/-- The states that a task can move its runtime to: that which it writes, and a reservation that is
refused blocks the runtime. -/
def Call.Reaches (call : Call) (task : Task) (toState : RuntimeState) : Prop :=
  call.target task = some toState ∨ toState = .blocked

section

variable {s s' s'' : State} {c k : ℕ} {call : Call} {can can' : RuntimeState → Prop}

lemma Touches.of_eq (h : s'.runtime = s.runtime) : Touches s s' k can where
  others k' _ := congrFun h k'
  row := by
    rw [congrFun h k]
    exact .same _

lemma RowStep.mono {x y : Option AccountRuntime × List RuntimeEvent} (h : RowStep can x y)
    (hcan : ∀ state, can state → can' state) : RowStep can' x y := by
  cases h with
  | same => exact .same _
  | created => exact .created _
  | moved hcohort hquarantined hsaves hfrom hevent hreach =>
    exact .moved hcohort hquarantined hsaves hfrom hevent (hcan _ hreach)
  | saved hcohort hstate hsaves => exact .saved hcohort hstate hsaves

lemma Touches.mono (h : Touches s s' k can) (hcan : ∀ state, can state → can' state) :
    Touches s s' k can' := ⟨h.others, h.row.mono hcan⟩

lemma Touches.goOn {tasks : List Task} (h : Touches s s' k can) :
    Touches s (s'.goOn c call tasks) k can := ⟨h.others, h.row⟩

lemma Touches.unlock (h : Touches s s' k can) : Touches s (s'.unlock c) k can := ⟨h.others, h.row⟩

lemma touches_recordTransition (s : State) (k : ℕ) (toState : RuntimeState) (eventType : EventType)
    (reasonCode detail : String) :
    Touches s (s.recordTransition k toState eventType reasonCode detail) k (· = toState) := by
  unfold State.recordTransition
  cases hget : s.runtimes.get k with
  | none => exact .of_eq rfl
  | some rt =>
    constructor
    · intro k' hne
      simp [State.runtime, Table.get_modify_of_ne _ _ hne, Function.update_of_ne hne]
    · have hrow : s.runtime k = (some rt, s.events k) := by
        simp [State.runtime, hget]
      rw [hrow]
      simp only [State.runtime, Table.get_modify, if_true, hget, Function.update_self,
        Option.map_some]
      exact .moved rfl rfl (Nat.lt_succ_self _) rfl rfl rfl

lemma touches_saveRuntime (s : State) (k : ℕ) {f : AccountRuntime → AccountRuntime}
    (hf : ∀ rt, (f rt).cohort = rt.cohort ∧ (f rt).state = rt.state) :
    Touches s (s.saveRuntime k f) k can := by
  constructor
  · intro k' hne
    simp [State.saveRuntime, State.runtime, Table.get_modify_of_ne _ _ hne]
  · cases hget : s.runtimes.get k with
    | none =>
      have hsame : (s.saveRuntime k f).runtime k = s.runtime k := by
        simp [State.saveRuntime, State.runtime, hget]
      rw [hsame]
      exact .same _
    | some rt =>
      have hrow : s.runtime k = (some rt, s.events k) := by
        simp [State.runtime, hget]
      rw [hrow]
      simp only [State.saveRuntime, State.runtime, Table.get_modify, if_true, hget, Option.map_some]
      exact .saved (hf rt).1 (hf rt).2 (Nat.lt_succ_self _)

/-- A transition and a save of other fields in one transaction. -/
lemma touches_recordRunning (env : Env) (s : State) (k : ℕ) (v : VerifyResult) (requireLogin : Bool) :
    Touches s (s.recordRunning env k v requireLogin) k (· = .running) := by
  unfold State.recordRunning State.recordTransition
  cases hget : s.runtimes.get k with
  | none =>
    constructor
    · intro k' hne
      simp [State.saveRuntime, State.runtime, Table.get_modify_of_ne _ _ hne]
    · have hsame : (s.saveRuntime k fun rt => { rt with lastHeartbeatAt := some s.now }).runtime k
          = s.runtime k := by
        simp [State.saveRuntime, State.runtime, hget]
      exact hsame ▸ .same _
  | some rt =>
    constructor
    · intro k' hne
      simp [State.saveRuntime, State.runtime, Table.get_modify_of_ne _ _ hne,
        Function.update_of_ne hne]
    · have hrow : s.runtime k = (some rt, s.events k) := by
        simp [State.runtime, hget]
      rw [hrow]
      simp only [State.saveRuntime, State.runtime, Table.get_modify, if_true, hget,
        Function.update_self, Option.map_some]
      exact .moved rfl rfl (by simp only [AccountRuntime.moved]; omega) rfl rfl rfl

lemma touches_deny (s : State) (c : ℕ) (call : Call) (reasonCode : String) :
    Touches s (s.deny c call reasonCode) call.runtime (· = .blocked) := by
  unfold State.deny
  dsimp only
  split_ifs
  · exact (touches_recordTransition s call.runtime .blocked .transition reasonCode "").unlock.goOn
  · exact .of_eq rfl

lemma touches_reserveStep (env : Env) (s : State) (c : ℕ) (call : Call) (rest : List Task)
    (reply : Reply) (phase : ReservePhase) :
    Touches s (s.reserveStep env c call rest reply phase) call.runtime
      (call.Reaches (.reserve phase)) := by
  have hdeny : ∀ reasonCode, Touches s (s.deny c call reasonCode) call.runtime
      (call.Reaches (.reserve phase)) :=
    fun reasonCode => (touches_deny s c call reasonCode).mono fun _ h => .inr h
  cases phase with
  | ensure =>
    simp only [State.reserveStep]
    split_ifs
    · exact .of_eq rfl
    · by_cases hmem : call.runtime ∈ s.runtimes.keys
      · refine .of_eq ?_
        simp [Table.insert_of_mem _ hmem]
      · have hnone : s.runtimes.get call.runtime = none := Table.get_eq_none_iff.mpr hmem
        refine Touches.goOn ⟨fun k' hne => ?_, ?_⟩
        · simp [State.runtime, Table.get_insert _ hmem, hne]
        · have hrow : s.runtime call.runtime = (none, s.events call.runtime) := by
            simp [State.runtime, hnone]
          rw [hrow]
          simp only [State.runtime, Table.get_insert _ hmem, if_true]
          exact .created _
  | lockCapacity =>
    simp only [State.reserveStep]
    split_ifs <;> exact .of_eq rfl
  | lockRuntime =>
    simp only [State.reserveStep]
    split
    · exact .of_eq rfl
    · split_ifs <;> exact .of_eq rfl
  | countUser =>
    simp only [State.reserveStep]
    split_ifs
    · exact hdeny _
    · exact hdeny _
    · exact .of_eq rfl
  | countGlobal =>
    simp only [State.reserveStep]
    split_ifs
    · exact hdeny _
    · exact .of_eq rfl
  | grant =>
    simp only [State.reserveStep]
    split_ifs
    · exact hdeny _
    · have hmove := touches_recordTransition s call.runtime .queued .transition "slot_reserved" ""
      refine Touches.goOn (hmove.unlock.mono ?_)
      rintro _ rfl
      exact .inl rfl

/-- **What a task does to the runtimes.** -/
theorem touches_exec (env : Env) (s : State) (c : ℕ) (call : Call) (rest : List Task) (reply : Reply)
    (task : Task) :
    Touches s (s.exec env c call rest reply task) call.runtime (call.Reaches task) := by
  have hwrite : ∀ toState eventType reasonCode detail, call.target task = some toState →
      Touches s (s.recordTransition call.runtime toState eventType reasonCode detail) call.runtime
        (call.Reaches task) := by
    intro toState eventType reasonCode detail htarget
    refine (touches_recordTransition s call.runtime toState eventType reasonCode detail).mono ?_
    rintro _ rfl
    exact .inl htarget
  cases task with
  | reserve phase => exact touches_reserveStep env s c call rest reply phase
  | transition toState reasonCode =>
    simp only [State.exec]
    split_ifs
    · exact (hwrite toState .transition reasonCode "" rfl).goOn
    · exact .of_eq rfl
  | failure reasonCode detail =>
    simp only [State.exec]
    split_ifs
    · exact (hwrite call.seen .failure reasonCode detail rfl).goOn
    · exact .of_eq rfl
  | arrive v requireLogin =>
    simp only [State.exec]
    split_ifs
    · refine Touches.goOn ((touches_recordRunning env s call.runtime v requireLogin).mono ?_)
      rintro _ rfl
      exact .inl rfl
    · exact .of_eq rfl
  | quarantine reason =>
    simp only [State.exec]
    split_ifs
    · exact Touches.goOn (touches_saveRuntime s call.runtime fun _ => ⟨rfl, rfl⟩)
    · exact .of_eq rfl
  | clearQuarantine =>
    simp only [State.exec]
    split_ifs
    · exact Touches.goOn (touches_saveRuntime s call.runtime fun _ => ⟨rfl, rfl⟩)
    · exact .of_eq rfl
  | note reasonCode =>
    simp only [State.exec]
    split_ifs
    · exact Touches.goOn (touches_saveRuntime s call.runtime fun _ => ⟨rfl, rfl⟩)
    · exact .of_eq rfl
  | load =>
    simp only [State.exec]
    split
    · split_ifs <;> exact .of_eq rfl
    · exact .of_eq rfl
  | reload =>
    simp only [State.exec]
    split <;> exact .of_eq rfl
  | gate =>
    simp only [State.exec]
    split <;> exact .of_eq rfl
  | remote reasonCode =>
    simp only [State.exec]
    split <;> exact .of_eq rfl
  | verify =>
    simp only [State.exec]
    split
    · exact .of_eq rfl
    · split <;> exact .of_eq rfl
  | look =>
    simp only [State.exec]
    split <;> exact .of_eq rfl
  | finish status error =>
    simp only [State.exec]
    split <;> exact .of_eq rfl

/-- The step `a` can move the runtime `k` to a state. -/
def Moves (s : State) (a : Action) (k : ℕ) (toState : RuntimeState) : Prop :=
  match a with
  | .step c _ => ∃ call task rest, s.calls c = some call ∧ call.tasks = task :: rest ∧
      call.runtime = k ∧ call.Reaches task toState
  | .claim _ _ => toState = .failed
  | _ => False

lemma touches_claimJob (s : State) (c j : ℕ) :
    ∃ k, Touches s (s.claimJob c j) k (· = .failed) := by
  unfold State.claimJob
  split
  next job hcall hjob =>
    refine ⟨job.runtime, ?_⟩
    split_ifs
    · exact .of_eq rfl
    · unfold State.failRuntime
      split_ifs
      · have h := touches_recordTransition
          { s with
            jobs := s.jobs.modify j fun job =>
              { job with
                status := .failed
                attempt := job.attempt + 1
                finishedAt := some s.now
                leaseExpiresAt := none
                lastError := "attempts_exhausted" } } job.runtime .failed .transition
          "attempts_exhausted" ""
        exact ⟨h.others, h.row⟩
      · exact .of_eq rfl
    · exact .of_eq rfl
    · exact .of_eq rfl
  · exact ⟨0, .of_eq rfl⟩

/-- **What a step does to the runtimes**: it touches one of them, and moves it to a state that its task
can move it to. -/
theorem step_touches (env : Env) (s : State) (a : Action) :
    ∃ k, Touches s (step env s a) k (Moves s a k) := by
  cases a with
  | tick seconds => exact ⟨0, .of_eq rfl⟩
  | enqueue k op =>
    refine ⟨0, .of_eq ?_⟩
    simp only [step, State.enqueueOp]
    split_ifs <;> rfl
  | claim c j =>
    obtain ⟨k, h⟩ := touches_claimJob s c j
    exact ⟨k, h.mono fun _ => id⟩
  | request c k request =>
    refine ⟨0, .of_eq ?_⟩
    simp only [step, State.beginRequest]
    split
    · split_ifs <;> rfl
    · split_ifs <;> rfl
    · rfl
  | step c reply =>
    simp only [step, stepNoted]
    cases hcall : s.calls c with
    | none => exact ⟨0, .of_eq rfl⟩
    | some call =>
      refine ⟨call.runtime, ?_⟩
      cases htasks : call.tasks with
      | nil =>
        refine .of_eq ?_
        simp [State.stepCall, hcall, htasks]
      | cons task rest =>
        have h : Touches s (s.stepCall env c reply) call.runtime
            (Moves s (.step c reply) call.runtime) := by
          simp only [State.stepCall, hcall, htasks]
          exact (touches_exec env s c call rest reply task).mono fun state hreach =>
            ⟨call, task, rest, hcall, htasks, rfl, hreach⟩
        exact ⟨h.others, h.row⟩
  | crash c => exact ⟨0, .of_eq rfl⟩

/-! ### The calls -/

structure Continued (call call' : Call) : Prop where
  runtime : call'.runtime = call.runtime
  claim : call'.claim = call.claim
  mine : call'.mine = call.mine
  overtaken : call'.overtaken = call.overtaken

lemma Continued.refl (call : Call) : Continued call call := ⟨rfl, rfl, rfl, rfl⟩

/-- A step of the call `c` leaves the other calls, and goes on with `c` or ends it. -/
structure GoesOn (s s' : State) (c : ℕ) (call : Call) : Prop where
  others : ∀ q, q ≠ c → s'.calls q = s.calls q
  self : ∀ call', s'.calls c = some call' → Continued call call'

lemma goesOn_goOn {call' : Call} {tasks : List Task} (hcalls : s'.calls = s.calls)
    (h : Continued call call') : GoesOn s (s'.goOn c call' tasks) c call where
  others q hq := by
    simp [State.goOn, State.setCall, Function.update_of_ne hq, hcalls]
  self call'' hcall := by
    simp only [State.goOn, State.setCall, Function.update_self, Option.some.injEq] at hcall
    subst hcall
    exact ⟨h.runtime, h.claim, h.mine, h.overtaken⟩

lemma goesOn_endCall (hcalls : s'.calls = s.calls) : GoesOn s (s'.endCall c) c call where
  others q hq := by
    simp [State.endCall, State.unlock, Function.update_of_ne hq, hcalls]
  self call'' hcall := by
    simp [State.endCall, State.unlock] at hcall

lemma goesOn_refl (hcall : s.calls c = some call) : GoesOn s s c call where
  others _ _ := rfl
  self call' h := by
    obtain rfl := Option.some.inj (hcall.symm.trans h)
    exact .refl call

@[simp] lemma calls_recordTransition (toState : RuntimeState) (eventType : EventType)
    (reasonCode detail : String) :
    (s.recordTransition k toState eventType reasonCode detail).calls = s.calls := by
  unfold State.recordTransition
  split <;> rfl

lemma goesOn_deny (reasonCode : String) : GoesOn s (s.deny c call reasonCode) c call := by
  refine goesOn_goOn ?_ (.refl call)
  simp only [State.unlock]
  split_ifs <;> simp

lemma goesOn_reserveStep (env : Env) (hcall : s.calls c = some call) (rest : List Task) (reply : Reply)
    (phase : ReservePhase) : GoesOn s (s.reserveStep env c call rest reply phase) c call := by
  cases phase with
  | ensure =>
    simp only [State.reserveStep]
    split_ifs <;> exact goesOn_goOn rfl (.refl call)
  | lockCapacity =>
    simp only [State.reserveStep]
    split_ifs
    · exact goesOn_goOn rfl (.refl call)
    · exact goesOn_refl hcall
  | lockRuntime =>
    simp only [State.reserveStep]
    split
    · exact goesOn_endCall rfl
    · split_ifs
      · exact goesOn_refl hcall
      · exact goesOn_goOn rfl (.refl call)
      · exact goesOn_goOn rfl (.refl call)
      · exact goesOn_goOn rfl (.refl call)
      · exact goesOn_goOn rfl (.refl call)
  | countUser =>
    simp only [State.reserveStep]
    split_ifs
    · exact goesOn_deny _
    · exact goesOn_deny _
    · exact goesOn_goOn rfl (.refl call)
  | countGlobal =>
    simp only [State.reserveStep]
    split_ifs
    · exact goesOn_deny _
    · exact goesOn_goOn rfl (.refl call)
  | grant =>
    simp only [State.reserveStep]
    split_ifs
    · exact goesOn_deny _
    · exact goesOn_goOn (by simp [State.unlock]) (.refl call)

/-- **What a task does to the calls.** -/
theorem goesOn_exec (env : Env) (hcall : s.calls c = some call) (rest : List Task) (reply : Reply)
    (task : Task) : GoesOn s (s.exec env c call rest reply task) c call := by
  have hseen : ∀ seen, Continued call { call with seen } := fun _ => ⟨rfl, rfl, rfl, rfl⟩
  cases task with
  | reserve phase => exact goesOn_reserveStep env hcall rest reply phase
  | transition toState reasonCode =>
    simp only [State.exec]
    split_ifs
    · exact goesOn_goOn (by simp) (hseen _)
    · exact goesOn_refl hcall
  | failure reasonCode detail =>
    simp only [State.exec]
    split_ifs
    · exact goesOn_goOn (by simp) (.refl call)
    · exact goesOn_refl hcall
  | arrive v requireLogin =>
    simp only [State.exec]
    split_ifs
    · exact goesOn_goOn (by simp [State.recordRunning, State.saveRuntime]) (hseen _)
    · exact goesOn_refl hcall
  | quarantine reason =>
    simp only [State.exec]
    split_ifs
    · exact goesOn_goOn rfl (.refl call)
    · exact goesOn_refl hcall
  | clearQuarantine =>
    simp only [State.exec]
    split_ifs
    · exact goesOn_goOn rfl (.refl call)
    · exact goesOn_refl hcall
  | note reasonCode =>
    simp only [State.exec]
    split_ifs
    · exact goesOn_goOn rfl (.refl call)
    · exact goesOn_refl hcall
  | load =>
    simp only [State.exec]
    split
    · split_ifs
      · exact goesOn_goOn rfl (.refl call)
      · exact goesOn_goOn rfl (hseen _)
    · exact goesOn_endCall rfl
  | reload =>
    simp only [State.exec]
    split
    · exact goesOn_goOn rfl (hseen _)
    · exact goesOn_endCall rfl
  | gate =>
    simp only [State.exec]
    split <;> exact goesOn_goOn rfl (.refl call)
  | remote reasonCode =>
    simp only [State.exec]
    split <;> exact goesOn_goOn rfl (.refl call)
  | verify =>
    simp only [State.exec]
    split
    · exact goesOn_goOn rfl (.refl call)
    · split <;> exact goesOn_goOn rfl (.refl call)
  | look =>
    simp only [State.exec]
    split
    · exact goesOn_goOn rfl (hseen _)
    · exact goesOn_endCall rfl
  | finish status error =>
    simp only [State.exec]
    split <;> exact goesOn_endCall rfl

lemma goesOn_stepCall (env : Env) (hcall : s.calls c = some call) (reply : Reply) :
    GoesOn s (s.stepCall env c reply) c call := by
  simp only [State.stepCall, hcall]
  split
  · exact goesOn_endCall rfl
  · exact goesOn_exec env hcall _ reply _

end

end TerminalProvisioning
end GuvFX
