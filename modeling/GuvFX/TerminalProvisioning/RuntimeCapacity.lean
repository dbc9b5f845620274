/-
# The caps of the pool

A reservation counts the runtimes that hold a slot and writes under one lock, and it refuses a runtime
that is quarantined.  The other writers of the state of a runtime ask nobody: a driver that moves a
runtime into a state that holds a slot does not take the lock, does not count, and does not look at the
quarantine.

The caps hold, and a quarantined runtime stays outside of the pool, in every run in which such a move
finds that it may be made: the runtime holds its slot already, or it is not quarantined, there is room,
and no reservation is counting.
-/
import GuvFX.TerminalProvisioning.RuntimeRows

namespace GuvFX
namespace TerminalProvisioning

open Runs

/-! ### The caps -/

structure Room (env : Env) (s : State) (user : ℕ) : Prop where
  forUser : (s.activeBetaRuntimeCountForUser env user : ℤ) < env.perUserMaxActiveRuntimes user
  overall : (s.activeBetaRuntimeCount : ℤ) < env.globalMaxActiveRuntimes

/-- The caps are kept. -/
structure Within (env : Env) (s : State) : Prop where
  forUser : ∀ user, (s.activeBetaRuntimeCountForUser env user : ℤ) ≤ env.perUserMaxActiveRuntimes user
  overall : (s.activeBetaRuntimeCount : ℤ) ≤ env.globalMaxActiveRuntimes

/-- A quarantined runtime without a slot does not get one. -/
def StaysOut (env : Env) (s : State) (a : Action) : Prop :=
  ∀ k rt rt', s.runtimes.get k = some rt → rt.quarantined = true → rt.state.held = false →
    (step env s a).runtimes.get k = some rt' → rt'.state.held = false

/-- A call that moves a runtime into the pool, and is not a reservation, finds that the runtime holds
its slot already, or that it is not quarantined, there is room and no reservation is under way. -/
def FindsRoom (env : Env) (s : State) (a : Action) : Prop :=
  ∀ c reply call task rest state rt, a = .step c reply → s.calls c = some call →
    call.tasks = task :: rest → call.target task = some state → state.held = true →
    task ≠ .reserve .grant → s.runtimes.get call.runtime = some rt →
    rt.state.held = true ∨ rt.quarantined = false ∧ s.capacityLock = none ∧
      Room env s (env.accounts call.runtime).userId

/-! ### Runtimes that enter the pool -/

/-- The runtime `k` enters the pool. -/
def Enters (s s' : State) (k : ℕ) : Prop :=
  ∃ rt rt', s.runtimes.get k = some rt ∧ rt.state.held = false ∧
    s'.runtimes.get k = some rt' ∧ rt'.state.held = true

section

variable {env : Env} {s s' : State} {a : Action} {c k : ℕ} {call : Call} {can : RuntimeState → Prop}

lemma row_before (h : Touches s s' k can) {k' : ℕ} {rt' : AccountRuntime}
    (hget : s'.runtimes.get k' = some rt') :
    (∃ rt, s.runtimes.get k' = some rt ∧ rt'.cohort = rt.cohort ∧
        (rt'.state = rt.state ∨ k' = k ∧ can rt'.state ∧ rt'.quarantined = rt.quarantined)) ∨
      rt'.state = .notProvisioned := by
  have hrow : ∀ x y, RowStep can x y → y.1 = some rt' →
      (∃ rt, x.1 = some rt ∧ rt'.cohort = rt.cohort ∧
        (rt'.state = rt.state ∨ can rt'.state ∧ rt'.quarantined = rt.quarantined)) ∨
        rt'.state = .notProvisioned := by
    rintro x _ (_ | _ | ⟨hcohort, hquarantined, -, -, -, hcan⟩ | ⟨hcohort, hstate, -⟩) hy
    · exact .inl ⟨rt', hy, rfl, .inl rfl⟩
    · obtain rfl := Option.some.inj hy
      exact .inr rfl
    · obtain rfl := Option.some.inj hy
      exact .inl ⟨_, rfl, hcohort, .inr ⟨hcan, hquarantined⟩⟩
    · obtain rfl := Option.some.inj hy
      exact .inl ⟨_, rfl, hcohort, .inl hstate⟩
  by_cases hk : k' = k
  · subst hk
    rcases hrow _ _ h.row hget with ⟨rt, hrt, hcohort, hstate⟩ | hnew
    · refine .inl ⟨rt, hrt, hcohort, ?_⟩
      tauto
    · exact .inr hnew
  · have hsame := congrArg Prod.fst (h.others k' hk)
    simp only [State.runtime] at hsame
    exact .inl ⟨rt', hsame ▸ hget, rfl, .inl rfl⟩

lemma of_enters (h : Enters s (step env s a) k) :
    ∃ c reply call task rest state, a = .step c reply ∧ s.calls c = some call ∧
      call.tasks = task :: rest ∧ call.runtime = k ∧ call.target task = some state ∧
      state.held = true := by
  obtain ⟨rt, rt', hget, hout, hget', hin⟩ := h
  obtain ⟨k', htouches⟩ := step_touches env s a
  rcases row_before htouches hget' with ⟨rt₀, hget₀, -, hsame | ⟨rfl, hmoves, -⟩⟩ | hnew
  · obtain rfl := Option.some.inj (hget.symm.trans hget₀)
    rw [hsame, hout] at hin
    cases hin
  · cases a with
    | step c reply =>
      obtain ⟨call, task, rest, hcall, htasks, hruntime, htarget | hblocked⟩ := hmoves
      · exact ⟨c, reply, call, task, rest, _, rfl, hcall, htasks, hruntime, htarget, hin⟩
      · rw [hblocked] at hin
        cases hin
    | claim c j =>
      have hfailed : rt'.state = .failed := hmoves
      rw [hfailed] at hin
      cases hin
    | tick seconds => cases hmoves
    | enqueue k op => cases hmoves
    | request c k request => cases hmoves
    | crash c => cases hmoves
  · rw [hnew] at hin
    cases hin

lemma held_before (htouches : Touches s s' k can) {k' : ℕ} {rt' : AccountRuntime}
    (hget : s'.runtimes.get k' = some rt') (hheld : rt'.state.held = true)
    (hnot : ¬ Enters s s' k') :
    ∃ rt, s.runtimes.get k' = some rt ∧ rt.state.held = true ∧ rt.cohort = rt'.cohort := by
  rcases row_before htouches hget with ⟨rt, hrt, hcohort, -⟩ | hnew
  · refine ⟨rt, hrt, ?_, hcohort.symm⟩
    by_contra hout
    exact hnot ⟨rt, rt', hrt, by simpa using hout, hget, hheld⟩
  · rw [hnew] at hheld
    cases hheld

lemma counts_le (env : Env) (htouches : Touches s s' k can) (hnot : ∀ k', ¬ Enters s s' k') :
    s'.activeBetaRuntimeCount ≤ s.activeBetaRuntimeCount ∧
      ∀ user, s'.activeBetaRuntimeCountForUser env user ≤ s.activeBetaRuntimeCountForUser env user := by
  constructor
  · refine Table.length_filter_le fun k' rt' hget hp => ?_
    simp only [Bool.decide_and, decide_eq_true_eq, Bool.and_eq_true] at hp
    obtain ⟨rt, hrt, hheld, hcohort⟩ := held_before htouches hget hp.2 (hnot k')
    exact ⟨rt, hrt, by simp [hheld, hcohort, hp.1]⟩
  · intro user
    refine Table.length_filter_le fun k' rt' hget hp => ?_
    simp only [Bool.decide_and, decide_eq_true_eq, Bool.and_eq_true] at hp
    obtain ⟨rt, hrt, hheld, hcohort⟩ := held_before htouches hget hp.2.1 (hnot k')
    exact ⟨rt, hrt, by simp [hheld, hcohort, hp.1, hp.2.2]⟩

lemma counts_le_succ (env : Env) (htouches : Touches s s' k can) (henters : ∀ k', Enters s s' k' → k' = k) :
    s'.activeBetaRuntimeCount ≤ s.activeBetaRuntimeCount + 1 ∧
      (s'.activeBetaRuntimeCountForUser env (env.accounts k).userId
        ≤ s.activeBetaRuntimeCountForUser env (env.accounts k).userId + 1) ∧
      ∀ user, user ≠ (env.accounts k).userId →
        s'.activeBetaRuntimeCountForUser env user ≤ s.activeBetaRuntimeCountForUser env user := by
  refine ⟨?_, ?_, ?_⟩
  · refine Table.length_filter_le_succ k fun k' rt' hget hp => ?_
    simp only [Bool.decide_and, decide_eq_true_eq, Bool.and_eq_true] at hp
    by_cases hk : k' = k
    · exact .inl hk
    · obtain ⟨rt, hrt, hheld, hcohort⟩ :=
        held_before htouches hget hp.2 (fun h => hk (henters k' h))
      exact .inr ⟨rt, hrt, by simp [hheld, hcohort, hp.1]⟩
  · refine Table.length_filter_le_succ k fun k' rt' hget hp => ?_
    simp only [Bool.decide_and, decide_eq_true_eq, Bool.and_eq_true] at hp
    by_cases hk : k' = k
    · exact .inl hk
    · obtain ⟨rt, hrt, hheld, hcohort⟩ :=
        held_before htouches hget hp.2.1 (fun h => hk (henters k' h))
      exact .inr ⟨rt, hrt, by simp [hheld, hcohort, hp.1, hp.2.2]⟩
  · intro user huser
    refine Table.length_filter_le fun k' rt' hget hp => ?_
    simp only [Bool.decide_and, decide_eq_true_eq, Bool.and_eq_true] at hp
    have hk : k' ≠ k := by
      rintro rfl
      exact huser hp.2.2.symm
    obtain ⟨rt, hrt, hheld, hcohort⟩ :=
      held_before htouches hget hp.2.1 (fun h => hk (henters k' h))
    exact ⟨rt, hrt, by simp [hheld, hcohort, hp.1, hp.2.2]⟩

end

/-! ### Reservations -/

/-- The reservation `c` holds both locks, and the runtime may be admitted as far as its own row goes. -/
structure Admitting (s : State) (c : ℕ) (call : Call) : Prop where
  capacityLock : s.capacityLock = some c
  rowLock : s.rowLocks call.runtime = some c
  row : ∃ rt, s.runtimes.get call.runtime = some rt ∧ rt.quarantined = false ∧ rt.state.held = false

/-- What a reservation has made sure of. -/
def PhaseFits (env : Env) (s : State) (c : ℕ) (call : Call) : ReservePhase → Prop
  | .ensure | .lockCapacity => True
  | .lockRuntime => s.capacityLock = some c
  | .countUser => Admitting s c call
  | .countGlobal => Admitting s c call ∧
      (s.activeBetaRuntimeCountForUser env (env.accounts call.runtime).userId : ℤ)
        < env.perUserMaxActiveRuntimes (env.accounts call.runtime).userId
  | .grant => Admitting s c call ∧ Room env s (env.accounts call.runtime).userId

def Plain (tasks : List Task) : Prop := ∀ phase, Task.reserve phase ∉ tasks

/-- A call is at most in one reservation, and what this has made sure of is so. -/
structure TasksFit (env : Env) (s : State) (c : ℕ) (call : Call) : Prop where
  tail : Plain call.tasks.tail
  head : ∀ phase rest, call.tasks = .reserve phase :: rest → PhaseFits env s c call phase

def CallsFit (env : Env) (s : State) : Prop :=
  ∀ c call, s.calls c = some call → TasksFit env s c call

section

variable {env : Env} {s s' : State} {c k : ℕ} {call : Call} {tasks : List Task}

lemma Plain.fits (h : Plain tasks) (env : Env) (s : State) (c : ℕ) (call : Call) :
    TasksFit env s c { call with tasks } where
  tail phase hmem := h phase (List.mem_of_mem_tail hmem)
  head phase rest htasks := by
    have hcons : tasks = .reserve phase :: rest := htasks
    exact absurd (hcons ▸ List.mem_cons_self) (h phase)

lemma plain_append {tasks' : List Task} (h : Plain tasks) (h' : Plain tasks') :
    Plain (tasks ++ tasks') := by
  intro phase hmem
  rcases List.mem_append.mp hmem with hmem | hmem
  · exact h phase hmem
  · exact h' phase hmem

/-! The programs of the driver reserve at their first task only. -/

lemma plain_driveProvisioned (state : RuntimeState) : Plain (driveProvisioned state) := by
  intro phase
  cases state <;> simp [driveProvisioned, materialise, startAndVerify]

lemma plain_failStep (attempt : ℕ) (e : StepError) : Plain (failStep attempt e) := by
  intro phase
  unfold failStep
  dsimp only
  split_ifs <;> simp

lemma plain_afterRaise (call : Call) (raised : Raised) : Plain (call.afterRaise raised) := by
  intro phase
  unfold Call.afterRaise
  cases call.claim with
  | none => simp
  | some claim =>
    cases raised with
    | step e => exact plain_failStep _ _ phase
    | denied reasonCode => simp
    | invalid => simp

lemma drive_cases (op : Op) (state : RuntimeState) :
    Plain (drive op state) ∨ drive op state = [.reserve .ensure, .reload] := by
  cases op with
  | provision =>
    by_cases h : state = .notProvisioned ∨ state = .blocked
    · exact .inr (if_pos h)
    · left
      show Plain (driveProvision state)
      unfold driveProvision
      rw [if_neg h]
      exact plain_driveProvisioned state
  | start =>
    left
    intro phase
    cases state <;> simp [drive, driveStart, startAndVerify]
  | stop =>
    left
    intro phase
    cases state <;> simp [drive, driveStop, RuntimeState.held]
  | deprovision =>
    left
    intro phase
    cases state <;> simp [drive, driveDeprovision]

/-! ### What another call leaves of a reservation -/

/-- What a step of the call `c` leaves to the others: their locks, and the rows that they have locked. -/
structure Spares (s s' : State) (c : ℕ) : Prop where
  capacityLock : ∀ q, q ≠ c → s.capacityLock = some q → s'.capacityLock = some q
  rowLock : ∀ q k, q ≠ c → s.rowLocks k = some q → s'.rowLocks k = some q
  row : ∀ q k rt, q ≠ c → s.rowLocks k = some q → s.runtimes.get k = some rt →
    s'.runtimes.get k = some rt

lemma Spares.refl (s : State) (c : ℕ) : Spares s s c :=
  ⟨fun _ _ => id, fun _ _ _ => id, fun _ _ _ _ _ => id⟩

lemma Spares.trans {s'' : State} (h : Spares s s' c) (h' : Spares s' s'' c) : Spares s s'' c where
  capacityLock q hq hlock := h'.capacityLock q hq (h.capacityLock q hq hlock)
  rowLock q k hq hlock := h'.rowLock q k hq (h.rowLock q k hq hlock)
  row q k rt hq hlock hget := h'.row q k rt hq (h.rowLock q k hq hlock) (h.row q k rt hq hlock hget)

lemma Spares.of_eq (hcapacity : s'.capacityLock = s.capacityLock) (hrows : s'.rowLocks = s.rowLocks)
    (hruntimes : s'.runtimes = s.runtimes) : Spares s s' c where
  capacityLock _ _ h := hcapacity ▸ h
  rowLock _ _ _ h := hrows ▸ h
  row _ _ _ _ _ h := hruntimes ▸ h

lemma spares_unlock (s : State) (c : ℕ) : Spares s (s.unlock c) c where
  capacityLock q hq h := by
    simp only [State.unlock, h, Option.some.injEq]
    rw [if_neg hq]
  rowLock q k hq h := by
    simp only [State.unlock, Locks.release, h, Option.some.injEq]
    rw [if_neg hq]
  row _ _ _ _ _ h := h

lemma spares_goOn (s : State) (c : ℕ) (call : Call) (tasks : List Task) :
    Spares s (s.goOn c call tasks) c := .of_eq rfl rfl rfl

lemma spares_endCall (s : State) (c : ℕ) : Spares s (s.endCall c) c :=
  (spares_unlock s c).trans (.of_eq rfl rfl rfl)

lemma Spares.goOn {call : Call} {tasks : List Task} (h : Spares s s' c) :
    Spares s (s'.goOn c call tasks) c := h.trans (spares_goOn s' c call tasks)

lemma Spares.unlock (h : Spares s s' c) : Spares s (s'.unlock c) c := h.trans (spares_unlock s' c)

lemma Spares.endCall (h : Spares s s' c) : Spares s (s'.endCall c) c := h.trans (spares_endCall s' c)

lemma Spares.of_write (hwrite : s.canWrite c k = true) (hcapacity : s'.capacityLock = s.capacityLock)
    (hrows : s'.rowLocks = s.rowLocks) (hothers : ∀ k', k' ≠ k → s'.runtime k' = s.runtime k') :
    Spares s s' c where
  capacityLock _ _ h := hcapacity ▸ h
  rowLock _ _ _ h := hrows ▸ h
  row q k' rt hq hlock hget := by
    have hne : k' ≠ k := by
      rintro rfl
      simp only [State.canWrite, hlock, reduceCtorEq, Option.some.injEq, false_or,
        decide_eq_true_eq] at hwrite
      exact hq hwrite
    have hsame := congrArg Prod.fst (hothers k' hne)
    exact hsame.trans hget

lemma locks_recordTransition (s : State) (k : ℕ) (toState : RuntimeState) (eventType : EventType)
    (reasonCode detail : String) :
    (s.recordTransition k toState eventType reasonCode detail).capacityLock = s.capacityLock ∧
      (s.recordTransition k toState eventType reasonCode detail).rowLocks = s.rowLocks := by
  unfold State.recordTransition
  split <;> exact ⟨rfl, rfl⟩

lemma spares_recordTransition (hwrite : s.canWrite c k = true) (toState : RuntimeState)
    (eventType : EventType) (reasonCode detail : String) :
    Spares s (s.recordTransition k toState eventType reasonCode detail) c :=
  .of_write hwrite (locks_recordTransition s k toState eventType reasonCode detail).1
    (locks_recordTransition s k toState eventType reasonCode detail).2
    (touches_recordTransition s k toState eventType reasonCode detail).others

lemma spares_saveRuntime (hwrite : s.canWrite c k = true) {f : AccountRuntime → AccountRuntime}
    (hf : ∀ rt, (f rt).cohort = rt.cohort ∧ (f rt).state = rt.state) :
    Spares s (s.saveRuntime k f) c := by
  have htouches : Touches s (s.saveRuntime k f) k fun _ => False := touches_saveRuntime s k hf
  exact .of_write hwrite rfl rfl htouches.others

lemma Admitting.canWrite (h : Admitting s c call) : s.canWrite c call.runtime = true := by
  simp [State.canWrite, h.rowLock]

lemma spares_deny (h : Admitting s c call) (reasonCode : String) :
    Spares s (s.deny c call reasonCode) c := by
  unfold State.deny
  dsimp only
  split_ifs
  · exact ((spares_recordTransition h.canWrite _ _ _ _).unlock).goOn
  · exact (spares_unlock s c).goOn

lemma spares_reserveStep (rest : List Task) (reply : Reply) {phase : ReservePhase}
    (hphase : PhaseFits env s c call phase) :
    Spares s (s.reserveStep env c call rest reply phase) c := by
  cases phase with
  | ensure =>
    simp only [State.reserveStep]
    split_ifs
    · exact spares_goOn _ _ _ _
    · refine ⟨fun _ _ => id, fun _ _ _ => id, fun q k rt _ _ hget => ?_⟩
      show (s.runtimes.insert call.runtime { cohort := .beta }).get k = some rt
      by_cases hmem : call.runtime ∈ s.runtimes.keys
      · rwa [Table.insert_of_mem _ hmem]
      · exact Table.get_insert_of_get hmem hget
  | lockCapacity =>
    simp only [State.reserveStep]
    split_ifs with hfree
    · refine ⟨fun q _ hlock => ?_, fun _ _ _ => id, fun _ _ _ _ _ => id⟩
      rw [hfree] at hlock
      cases hlock
    · exact .refl s c
  | lockRuntime =>
    simp only [State.reserveStep]
    split
    · exact spares_endCall s c
    · split_ifs with hfree
      · exact .refl s c
      · exact (spares_unlock s c).goOn
      · exact (spares_unlock s c).goOn
      · exact (spares_unlock s c).goOn
      · refine ⟨fun _ _ => id, fun q k hq hlock => ?_, fun _ _ _ _ _ => id⟩
        have hne : k ≠ call.runtime := by
          rintro rfl
          rw [hlock] at hfree
          exact hfree (Option.some_ne_none _)
        simp [State.goOn, State.setCall, Locks.take, Function.update_of_ne hne, hlock]
  | countUser =>
    simp only [State.reserveStep]
    split_ifs
    · exact spares_deny hphase _
    · exact spares_deny hphase _
    · exact spares_goOn _ _ _ _
  | countGlobal =>
    simp only [State.reserveStep]
    split_ifs
    · exact spares_deny hphase.1 _
    · exact spares_goOn _ _ _ _
  | grant =>
    simp only [State.reserveStep]
    split_ifs
    · exact spares_deny hphase.1 _
    · exact ((spares_recordTransition hphase.1.canWrite _ _ _ _).unlock).goOn

/-- **A task spares the other calls.** -/
theorem spares_exec (rest : List Task) (reply : Reply) {task : Task}
    (hphase : ∀ phase, task = .reserve phase → PhaseFits env s c call phase) :
    Spares s (s.exec env c call rest reply task) c := by
  cases task with
  | reserve phase => exact spares_reserveStep rest reply (hphase phase rfl)
  | transition toState reasonCode =>
    simp only [State.exec]
    split_ifs with hwrite
    · exact (spares_recordTransition hwrite _ _ _ _).goOn
    · exact .refl s c
  | failure reasonCode detail =>
    simp only [State.exec]
    split_ifs with hwrite
    · exact (spares_recordTransition hwrite _ _ _ _).goOn
    · exact .refl s c
  | arrive v requireLogin =>
    simp only [State.exec]
    split_ifs with hwrite
    · refine Spares.goOn (.of_write hwrite ?_ ?_
        (touches_recordRunning env s call.runtime v requireLogin).others)
      · exact (locks_recordTransition s call.runtime .running .transition "verified" "").1
      · exact (locks_recordTransition s call.runtime .running .transition "verified" "").2
    · exact .refl s c
  | quarantine reason =>
    simp only [State.exec]
    split_ifs with hwrite
    · exact Spares.goOn (spares_saveRuntime hwrite fun _ => ⟨rfl, rfl⟩)
    · exact .refl s c
  | clearQuarantine =>
    simp only [State.exec]
    split_ifs with hwrite
    · exact Spares.goOn (spares_saveRuntime hwrite fun _ => ⟨rfl, rfl⟩)
    · exact .refl s c
  | note reasonCode =>
    simp only [State.exec]
    split_ifs with hwrite
    · exact Spares.goOn (spares_saveRuntime hwrite fun _ => ⟨rfl, rfl⟩)
    · exact .refl s c
  | load =>
    simp only [State.exec]
    split
    · split_ifs <;> exact spares_goOn _ _ _ _
    · exact spares_endCall s c
  | reload =>
    simp only [State.exec]
    split
    · exact spares_goOn _ _ _ _
    · exact spares_endCall s c
  | gate =>
    simp only [State.exec]
    split <;> exact spares_goOn _ _ _ _
  | remote reasonCode =>
    simp only [State.exec]
    split <;> exact spares_goOn _ _ _ _
  | verify =>
    simp only [State.exec]
    split
    · exact spares_goOn _ _ _ _
    · split <;> exact spares_goOn _ _ _ _
  | look =>
    simp only [State.exec]
    split
    · exact spares_goOn _ _ _ _
    · exact spares_endCall s c
  | finish status error =>
    simp only [State.exec]
    split
    · exact Spares.endCall (.of_eq rfl rfl rfl)
    · exact spares_endCall s c

end

/-! ### The reservations over a step -/

section

variable {env : Env} {s s' : State} {a : Action} {c q k j : ℕ} {call call' : Call} {tasks rest : List Task}
  {task : Task} {reply : Reply}

lemma Admitting.spared (h : Admitting s q call) (hspares : Spares s s' c) (hq : q ≠ c) :
    Admitting s' q call where
  capacityLock := hspares.capacityLock q hq h.capacityLock
  rowLock := hspares.rowLock q _ hq h.rowLock
  row := by
    obtain ⟨rt, hget, hrt⟩ := h.row
    exact ⟨rt, hspares.row q _ rt hq h.rowLock hget, hrt⟩

lemma PhaseFits.congr {phase : ReservePhase} (h : PhaseFits env s c call phase)
    (hruntime : call'.runtime = call.runtime) : PhaseFits env s c call' phase := by
  have hadmitting : Admitting s c call → Admitting s c call' := fun h =>
    ⟨h.capacityLock, hruntime ▸ h.rowLock, hruntime ▸ h.row⟩
  cases phase with
  | ensure => trivial
  | lockCapacity => trivial
  | lockRuntime => exact h
  | countUser => exact hadmitting h
  | countGlobal => exact ⟨hadmitting h.1, hruntime ▸ h.2⟩
  | grant => exact ⟨hadmitting h.1, hruntime ▸ h.2⟩

/-- No count has gone up. -/
def NoMore (env : Env) (s s' : State) : Prop :=
  s'.activeBetaRuntimeCount ≤ s.activeBetaRuntimeCount ∧
    ∀ user, s'.activeBetaRuntimeCountForUser env user ≤ s.activeBetaRuntimeCountForUser env user

lemma Room.mono {user : ℕ} (h : Room env s user) (hmore : NoMore env s s') : Room env s' user where
  forUser := by
    have hle := hmore.2 user
    have hlt := h.forUser
    omega
  overall := by
    have hle := hmore.1
    have hlt := h.overall
    omega

/-- What the reservation `q` has made sure of stays so when another call is spared to it. -/
lemma PhaseFits.spared {phase : ReservePhase} (h : PhaseFits env s q call phase)
    (hspares : Spares s s' c) (hq : q ≠ c) (hmore : s.capacityLock = some q → NoMore env s s') :
    PhaseFits env s' q call phase := by
  cases phase with
  | ensure => trivial
  | lockCapacity => trivial
  | lockRuntime => exact hspares.capacityLock q hq h
  | countUser => exact Admitting.spared h hspares hq
  | countGlobal =>
    refine ⟨h.1.spared hspares hq, ?_⟩
    have hle := (hmore h.1.capacityLock).2 (env.accounts call.runtime).userId
    have hlt := h.2
    omega
  | grant => exact ⟨h.1.spared hspares hq, h.2.mono (hmore h.1.capacityLock)⟩

lemma TasksFit.spared (h : TasksFit env s q call) (hspares : Spares s s' c) (hq : q ≠ c)
    (hmore : s.capacityLock = some q → NoMore env s s') : TasksFit env s' q call where
  tail := h.tail
  head phase rest htasks := (h.head phase rest htasks).spared hspares hq hmore

lemma fits_goOn (hplain : Plain tasks) (hcall : (s'.goOn c call tasks).calls c = some call') :
    TasksFit env (s'.goOn c call tasks) c call' := by
  simp only [State.goOn, State.setCall, Function.update_self, Option.some.injEq] at hcall
  subst hcall
  exact hplain.fits env _ c call

lemma fits_endCall (hcall : (s'.endCall c).calls c = some call') :
    TasksFit env (s'.endCall c) c call' := by
  simp [State.endCall] at hcall

lemma fits_reserve {phase : ReservePhase} (hplain : Plain rest)
    (hphase : PhaseFits env (s'.goOn c call (.reserve phase :: rest)) c call phase)
    (hcall : (s'.goOn c call (.reserve phase :: rest)).calls c = some call') :
    TasksFit env (s'.goOn c call (.reserve phase :: rest)) c call' := by
  simp only [State.goOn, State.setCall, Function.update_self, Option.some.injEq] at hcall
  subst hcall
  refine ⟨hplain, fun phase' rest' htasks => ?_⟩
  obtain ⟨hhead, -⟩ := List.cons.inj htasks
  obtain rfl := Task.reserve.inj hhead
  exact hphase.congr rfl

lemma fits_reserveStep {phase : ReservePhase} (hfits : TasksFit env s c call)
    (hcalls : s.calls c = some call) (htasks : call.tasks = .reserve phase :: rest)
    (hcall : (s.reserveStep env c call rest reply phase).calls c = some call') :
    TasksFit env (s.reserveStep env c call rest reply phase) c call' := by
  have hrest : Plain rest := by
    have htail := hfits.tail
    rwa [htasks] at htail
  have hphase := hfits.head phase rest htasks
  have hwaits : s.calls c = some call' → TasksFit env s c call' := by
    intro h
    obtain rfl := Option.some.inj (hcalls.symm.trans h)
    exact hfits
  have hdeny : ∀ reasonCode, (s.deny c call reasonCode).calls c = some call' →
      TasksFit env (s.deny c call reasonCode) c call' :=
    fun _ => fits_goOn (plain_afterRaise call _)
  cases phase with
  | ensure =>
    simp only [State.reserveStep] at hcall ⊢
    split_ifs at hcall ⊢
    · exact fits_goOn (plain_afterRaise call _) hcall
    · exact fits_reserve hrest trivial hcall
  | lockCapacity =>
    simp only [State.reserveStep] at hcall ⊢
    split_ifs at hcall ⊢
    · exact fits_reserve hrest rfl hcall
    · exact hwaits hcall
  | lockRuntime =>
    simp only [State.reserveStep] at hcall ⊢
    cases hget : s.runtimes.get call.runtime with
    | none =>
      rw [hget] at hcall
      exact fits_endCall hcall
    | some rt =>
      rw [hget] at hcall
      dsimp only at hcall ⊢
      split_ifs at hcall ⊢ with hfree hcohort hquarantined hheld
      · exact hwaits hcall
      · exact fits_goOn (plain_afterRaise call _) hcall
      · exact fits_goOn (plain_afterRaise call _) hcall
      · exact fits_goOn hrest hcall
      · refine fits_reserve hrest ?_ hcall
        exact
          { capacityLock := hphase
            rowLock := Function.update_self _ _ _
            row := ⟨rt, hget, by simpa using hquarantined, by simpa using hheld⟩ }
  | countUser =>
    simp only [State.reserveStep] at hcall ⊢
    split_ifs at hcall ⊢ with hvalid hcap
    · exact hdeny _ hcall
    · exact hdeny _ hcall
    · refine fits_reserve hrest ⟨⟨hphase.capacityLock, hphase.rowLock, hphase.row⟩, ?_⟩ hcall
      exact Int.not_le.mp hcap
  | countGlobal =>
    simp only [State.reserveStep] at hcall ⊢
    split_ifs at hcall ⊢ with hcap
    · exact hdeny _ hcall
    · refine fits_reserve hrest
        ⟨⟨hphase.1.capacityLock, hphase.1.rowLock, hphase.1.row⟩, hphase.2, ?_⟩ hcall
      exact Int.not_le.mp hcap
  | grant =>
    simp only [State.reserveStep] at hcall ⊢
    split_ifs at hcall ⊢
    · exact hdeny _ hcall
    · exact fits_goOn hrest hcall

lemma fits_exec (hfits : TasksFit env s c call) (hcalls : s.calls c = some call)
    (htasks : call.tasks = task :: rest)
    (hcall : (s.exec env c call rest reply task).calls c = some call') :
    TasksFit env (s.exec env c call rest reply task) c call' := by
  have hrest : Plain rest := by
    have htail := hfits.tail
    rwa [htasks] at htail
  have hwaits : s.calls c = some call' → TasksFit env s c call' := by
    intro h
    obtain rfl := Option.some.inj (hcalls.symm.trans h)
    exact hfits
  have hraise : ∀ raised, Plain (call.afterRaise raised) := plain_afterRaise call
  cases task with
  | reserve phase => exact fits_reserveStep hfits hcalls htasks hcall
  | transition toState reasonCode =>
    simp only [State.exec] at hcall ⊢
    split_ifs at hcall ⊢
    · exact fits_goOn hrest hcall
    · exact hwaits hcall
  | failure reasonCode detail =>
    simp only [State.exec] at hcall ⊢
    split_ifs at hcall ⊢
    · exact fits_goOn hrest hcall
    · exact hwaits hcall
  | arrive v requireLogin =>
    simp only [State.exec] at hcall ⊢
    split_ifs at hcall ⊢
    · exact fits_goOn hrest hcall
    · exact hwaits hcall
  | quarantine reason =>
    simp only [State.exec] at hcall ⊢
    split_ifs at hcall ⊢
    · exact fits_goOn hrest hcall
    · exact hwaits hcall
  | clearQuarantine =>
    simp only [State.exec] at hcall ⊢
    split_ifs at hcall ⊢
    · exact fits_goOn hrest hcall
    · exact hwaits hcall
  | note reasonCode =>
    simp only [State.exec] at hcall ⊢
    split_ifs at hcall ⊢
    · exact fits_goOn hrest hcall
    · exact hwaits hcall
  | load =>
    simp only [State.exec] at hcall ⊢
    split at hcall
    next rt claim hget hclaim =>
      split_ifs at hcall ⊢
      · exact fits_goOn (hraise _) hcall
      · rcases drive_cases claim.op rt.state with hplain | hreserve
        · exact fits_goOn (plain_append hplain hrest) hcall
        · rw [hreserve] at hcall ⊢
          refine fits_reserve ?_ trivial hcall
          refine plain_append ?_ hrest
          intro phase
          simp
    · exact fits_endCall hcall
  | reload =>
    simp only [State.exec] at hcall ⊢
    split at hcall
    next rt hget =>
      exact fits_goOn (plain_append (plain_driveProvisioned rt.state) hrest) hcall
    · exact fits_endCall hcall
  | gate =>
    simp only [State.exec] at hcall ⊢
    split at hcall
    · exact fits_goOn hrest hcall
    · exact fits_goOn (hraise _) hcall
  | remote reasonCode =>
    simp only [State.exec] at hcall ⊢
    split at hcall
    · exact fits_goOn hrest hcall
    · exact fits_goOn (hraise _) hcall
  | verify =>
    simp only [State.exec] at hcall ⊢
    split at hcall
    · exact fits_goOn (hraise _) hcall
    · split at hcall
      · exact fits_goOn (hraise _) hcall
      · refine fits_goOn ?_ hcall
        intro phase
        simp [hrest phase]
  | look =>
    simp only [State.exec] at hcall ⊢
    split at hcall
    · exact fits_goOn hrest hcall
    · exact fits_endCall hcall
  | finish status error =>
    simp only [State.exec] at hcall ⊢
    split at hcall <;> exact fits_endCall hcall

/-! ### The invariant -/

/-- What holds in every state: the caps are kept, and the reservations know what they have seen. -/
structure Inv (env : Env) (s : State) : Prop where
  within : Within env s
  calls : CallsFit env s

lemma enters_cases (h : CallsFit env s) (hroom : FindsRoom env s a)
    (henters : Enters s (step env s a) k) :
    ∃ c reply call, a = .step c reply ∧ s.calls c = some call ∧ call.runtime = k ∧
      Room env s (env.accounts k).userId ∧ (∀ q, s.capacityLock = some q → q = c) ∧
      ∀ rt, s.runtimes.get k = some rt → rt.quarantined = false := by
  obtain ⟨c, reply, call, task, rest, state, ha, hcall, htasks, rfl, htarget, hheld⟩ :=
    of_enters henters
  obtain ⟨rt, -, hget, hout, -, -⟩ := henters
  refine ⟨c, reply, call, ha, hcall, rfl, ?_⟩
  by_cases hgrant : task = .reserve .grant
  · subst hgrant
    obtain ⟨hadmitting, hfree⟩ := (h c call hcall).head .grant rest htasks
    refine ⟨hfree, fun q hlock => ?_, fun rt' hget' => ?_⟩
    · rw [hadmitting.capacityLock] at hlock
      exact (Option.some.inj hlock).symm
    · obtain ⟨rt₀, hget₀, hfalse, -⟩ := hadmitting.row
      obtain rfl := Option.some.inj (hget₀.symm.trans hget')
      exact hfalse
  · rcases hroom c reply call task rest state rt ha hcall htasks htarget hheld hgrant hget with
      hin | ⟨hfalse, hlock, hfree⟩
    · rw [hout] at hin
      cases hin
    · refine ⟨hfree, fun q hlock' => ?_, fun rt' hget' => ?_⟩
      · rw [hlock] at hlock'
        cases hlock'
      · obtain rfl := Option.some.inj (hget.symm.trans hget')
        exact hfalse

lemma Within.step (h : Inv env s) (hroom : FindsRoom env s a) : Within env (step env s a) := by
  obtain ⟨k, htouches⟩ := step_touches env s a
  by_cases hsome : ∃ k', Enters s (TerminalProvisioning.step env s a) k'
  · obtain ⟨k', henters⟩ := hsome
    obtain ⟨c, reply, call, ha, hcall, rfl, hfree, -, -⟩ := enters_cases h.calls hroom henters
    -- one step lets one runtime enter
    have honly : ∀ k'', Enters s (TerminalProvisioning.step env s a) k'' → k'' = call.runtime := by
      intro k'' henters'
      obtain ⟨c', reply', call', ha', hcall', rfl, -⟩ := enters_cases h.calls hroom henters'
      rw [ha] at ha'
      obtain ⟨rfl, -⟩ := Action.step.inj ha'
      rw [Option.some.inj (hcall.symm.trans hcall')]
    have hk : call.runtime = k := by
      by_contra hne
      obtain ⟨rt, rt', hget, hout, hget', hin⟩ := henters
      have hsame := congrArg Prod.fst (htouches.others _ hne)
      simp only [State.runtime] at hsame
      rw [hsame, hget] at hget'
      rw [Option.some.inj hget', hin] at hout
      cases hout
    subst hk
    obtain ⟨hall, hown, hothers⟩ := counts_le_succ env htouches honly
    have hlt := hfree.overall
    refine ⟨fun user => ?_, by omega⟩
    by_cases huser : user = (env.accounts call.runtime).userId
    · subst huser
      have hlt := hfree.forUser
      omega
    · have hle := hothers user huser
      have hcap := h.within.forUser user
      omega
  · obtain ⟨hall, husers⟩ := counts_le env htouches (not_exists.mp hsome)
    have hcap := h.within.overall
    refine ⟨fun user => ?_, by omega⟩
    have hle := husers user
    have hcap := h.within.forUser user
    omega

lemma staysOut_of_inv (h : Inv env s) (hroom : FindsRoom env s a) : StaysOut env s a := by
  intro k rt rt' hget hquarantined hout hget'
  by_contra hin
  have henters : Enters s (step env s a) k := ⟨rt, rt', hget, hout, hget', by simpa using hin⟩
  obtain ⟨-, -, -, -, -, -, -, -, hfalse⟩ := enters_cases h.calls hroom henters
  rw [hfalse rt hget] at hquarantined
  cases hquarantined

lemma noMore_of_locked (h : CallsFit env s) (hroom : FindsRoom env s a)
    (hother : ∀ c reply, a = .step c reply → c ≠ q) (hlock : s.capacityLock = some q) :
    NoMore env s (step env s a) := by
  obtain ⟨k, htouches⟩ := step_touches env s a
  refine counts_le env htouches fun k' henters => ?_
  obtain ⟨c, reply, call, ha, -, -, -, honly, -⟩ := enters_cases h hroom henters
  exact hother c reply ha (honly q hlock).symm

lemma noMore_of_eq (h : s'.runtimes = s.runtimes) : NoMore env s s' := by
  constructor
  · simp [State.activeBetaRuntimeCount, h]
  · intro user
    simp [State.activeBetaRuntimeCountForUser, h]

/-- A step of the call `c`, if every other call is spared. -/
lemma CallsFit.of_spares (h : CallsFit env s) (hspares : Spares s s' c)
    (hmore : ∀ q, q ≠ c → s.capacityLock = some q → NoMore env s s')
    (hothers : ∀ q call, q ≠ c → s'.calls q = some call → s.calls q = some call)
    (hself : ∀ call, s'.calls c = some call → TasksFit env s' c call) : CallsFit env s' := by
  intro q call hcall
  by_cases hq : q = c
  · subst hq
    exact hself call hcall
  · exact (h q call (hothers q call hq hcall)).spared hspares hq (hmore q hq)

lemma CallsFit.idle (h : CallsFit env s) (hcapacity : s'.capacityLock = s.capacityLock)
    (hrows : s'.rowLocks = s.rowLocks) (hruntimes : s'.runtimes = s.runtimes)
    (hcalls : s'.calls = s.calls) : CallsFit env s' := by
  intro q call hcall
  rw [hcalls] at hcall
  exact (h q call hcall).spared (c := q + 1) (.of_eq hcapacity hrows hruntimes) (by omega)
    fun _ => noMore_of_eq hruntimes

lemma CallsFit.remember (h : CallsFit env s') (before : State) (stopped : Bool) :
    CallsFit env (s'.remember before c k stopped) := by
  intro q call hcall
  simp only [State.remember, Option.map_eq_some_iff] at hcall
  obtain ⟨call₀, hcall₀, rfl⟩ := hcall
  have hfits := h q call₀ hcall₀
  have hsame : ∀ call, call.tasks = call₀.tasks → call.runtime = call₀.runtime →
      TasksFit env (s'.remember before c k stopped) q call := by
    intro call htasks hruntime
    have hspared : TasksFit env (s'.remember before c k stopped) q call₀ :=
      hfits.spared (c := q + 1) (.of_eq rfl rfl rfl) (by omega) fun _ => noMore_of_eq rfl
    refine ⟨htasks ▸ hspared.tail, fun phase rest hcons => ?_⟩
    exact (hspared.head phase rest (htasks ▸ hcons)).congr hruntime
  split_ifs <;> exact hsame _ rfl rfl

lemma CallsFit.setCall (h : CallsFit env s) (hcapacity : s'.capacityLock = s.capacityLock)
    (hrows : s'.rowLocks = s.rowLocks) (hruntimes : s'.runtimes = s.runtimes)
    (hcalls : s'.calls = s.calls) (htail : Plain call.tasks.tail)
    (hhead : ∀ phase, call.tasks.head? = some (.reserve phase) → phase = .ensure) :
    CallsFit env (s'.setCall c call) := by
  refine h.of_spares (c := c) (.of_eq hcapacity hrows hruntimes) (fun _ _ _ => noMore_of_eq hruntimes)
    ?_ ?_
  · intro q call' hq hcall'
    simpa [State.setCall, Function.update_of_ne hq, hcalls] using hcall'
  · intro call' hcall'
    simp only [State.setCall, Function.update_self, Option.some.injEq] at hcall'
    subst hcall'
    refine ⟨htail, fun phase rest htasks => ?_⟩
    obtain rfl := hhead phase (by rw [htasks]; rfl)
    trivial

lemma CallsFit.claimJob (h : CallsFit env s) (hroom : FindsRoom env s (.claim c j)) :
    CallsFit env (s.claimJob c j) := by
  have hmore : ∀ q, q ≠ c → s.capacityLock = some q → NoMore env s (s.claimJob c j) := by
    intro q _ hlock
    refine noMore_of_locked h hroom (fun _ _ hstep => ?_) hlock
    cases hstep
  revert hmore
  unfold State.claimJob
  split
  next job hnone hjob =>
    split_ifs with hactive hexhausted hwrite
    · exact fun _ => h
    · intro hmore
      refine h.of_spares (c := c) ?_ hmore ?_ ?_
      · unfold State.failRuntime
        split_ifs
        · exact .of_write hwrite (locks_recordTransition _ _ _ _ _ _).1
            (locks_recordTransition _ _ _ _ _ _).2 (touches_recordTransition _ _ _ _ _ _).others
        · exact .of_eq rfl rfl rfl
      · intro q call _ hcall
        unfold State.failRuntime at hcall
        split_ifs at hcall
        · simpa using hcall
        · exact hcall
      · intro call hcall
        unfold State.failRuntime at hcall
        split_ifs at hcall
        · simp [hnone] at hcall
        · simp [hnone] at hcall
    · exact fun _ => h
    · intro _
      refine h.setCall rfl rfl rfl rfl ?_ ?_
      · intro phase
        simp
      · intro phase hhead
        cases hhead
  · exact fun _ => h

lemma CallsFit.beginRequest (h : CallsFit env s) (request : State.Request) :
    CallsFit env (s.beginRequest c k request) := by
  have hnew : ∀ seen mine, CallsFit env
      (s.setCall c { runtime := k, seen, tasks := request.tasks seen, mine }) := by
    intro seen mine
    refine h.setCall rfl rfl rfl rfl ?_ ?_
    · intro phase
      simp only [State.Request.tasks]
      split
      · simp
      · split_ifs <;> simp
      · split_ifs <;> simp
      · simp
    · intro phase hhead
      cases request with
      | reserve => simpa [State.Request.tasks, eq_comm] using hhead
      | release reason =>
        simp only [State.Request.tasks] at hhead
        split_ifs at hhead <;> cases hhead
      | quarantine reason => cases hhead
      | clearQuarantine => cases hhead
  unfold State.beginRequest
  split
  · split_ifs
    · exact h
    · exact hnew _ _
  · split_ifs with hrequest
    · subst hrequest
      exact hnew .notProvisioned 0
    · exact h
  · exact h

lemma CallsFit.step (h : CallsFit env s) (hroom : FindsRoom env s a) :
    CallsFit env (step env s a) := by
  cases a with
  | tick seconds => exact h.idle rfl rfl rfl rfl
  | enqueue k op =>
    simp only [TerminalProvisioning.step, State.enqueueOp]
    split_ifs <;> exact h.idle rfl rfl rfl rfl
  | claim c j => exact h.claimJob hroom
  | request c k request => exact h.beginRequest request
  | step c reply =>
    have hmore : ∀ q, q ≠ c → s.capacityLock = some q →
        NoMore env s (TerminalProvisioning.step env s (.step c reply)) := by
      intro q hq hlock
      refine noMore_of_locked h hroom ?_ hlock
      rintro c' reply' hstep rfl
      obtain ⟨rfl, -⟩ := Action.step.inj hstep
      exact hq rfl
    revert hmore
    simp only [TerminalProvisioning.step, stepNoted]
    cases hcall : s.calls c with
    | none => exact fun _ => h
    | some call =>
      dsimp only
      intro hmore
      have hfits : CallsFit env (s.stepCall env c reply) := by
        refine h.of_spares (c := c) ?_ (fun q hq hlock => hmore q hq hlock) ?_ ?_
        · simp only [State.stepCall, hcall]
          split
          · exact spares_endCall s c
          next task rest htasks =>
            refine spares_exec rest reply fun phase htask => ?_
            subst htask
            exact (h c call hcall).head phase rest htasks
        · intro q call' hq hcall'
          rwa [(goesOn_stepCall env hcall reply).others q hq] at hcall'
        · intro call' hcall'
          simp only [State.stepCall, hcall] at hcall' ⊢
          split at hcall'
          · exact fits_endCall hcall'
          next task rest htasks => exact fits_exec (h c call hcall) hcall htasks hcall'
      exact hfits.remember s _
  | crash c =>
    refine h.of_spares (spares_endCall s c) (fun _ _ _ => noMore_of_eq rfl) ?_ ?_
    · intro q call hq hcall
      simpa [TerminalProvisioning.step, State.endCall, State.unlock, Function.update_of_ne hq]
        using hcall
    · exact fun call hcall => fits_endCall hcall

lemma Inv.step (h : Inv env s) (hroom : FindsRoom env s a) : Inv env (step env s a) :=
  ⟨Within.step h hroom, h.calls.step hroom⟩

end

/-! ### A start that nobody has counted -/

def poolEnv : Env where
  accounts := fun k =>
    { userId := k, accountNumber := "1001", brokerServer := none, brokerName := "Demo-1"
      isDemo := true, isActive := true, terminalNodeId := none }
  globalMaxActiveRuntimes := 1
  perUserMaxActiveRuntimes := fun _ => 1

/-- One runtime has the slot, and there is a job to start another one, which is stopped. -/
def fullPool : State :=
  { init with
    runtimes := (Table.empty.insert 1 { cohort := .beta, state := .running }).insert 2
      { cohort := .beta, state := .stopped }
    jobs := Table.empty.insert 1 { runtime := 2, op := .start } }

lemma within_fullPool : Within poolEnv fullPool where
  forUser user := by
    have hone : fullPool.activeBetaRuntimeCountForUser poolEnv user ≤ 1 := by
      refine Table.length_filter_le_one 1 fun k rt hget hp => ?_
      have hrow := Table.mem_rows_of_get hget
      have hrows : fullPool.runtimes.rows
          = [(1, { cohort := .beta, state := .running }), (2, { cohort := .beta, state := .stopped })] := by
        decide +kernel
      rw [hrows] at hrow
      simp only [List.mem_cons, Prod.mk.injEq, List.not_mem_nil, or_false] at hrow
      rcases hrow with ⟨rfl, -⟩ | ⟨-, rfl⟩
      · rfl
      · simp [RuntimeState.held] at hp
    show ((fullPool.activeBetaRuntimeCountForUser poolEnv user : ℕ) : ℤ) ≤ 1
    omega
  overall := by decide +kernel

end TerminalProvisioning
end GuvFX
