/-
# Stops and provisionings that are under way

The events of a runtime form one chain: each begins in the state that the one before has left, and the
last one has left the state of the row.  This holds of every run, since a transition reads the row under
the lock under which it writes.

A transition does not compare the state that it finds with the one that its driver has decided on.  A
driver therefore moves a runtime on after it was stopped, unless it always finds the row as it has
itself left it.
-/
import GuvFX.TerminalProvisioning.RuntimeRows
import Mathlib.Data.List.Chain

namespace GuvFX
namespace TerminalProvisioning

open Runs

/-! ### The chain of the events -/

/-- Each event begins where the one before has ended, and the last one has ended in the state of the
row. -/
structure Chained (x : Option AccountRuntime × List RuntimeEvent) : Prop where
  chain : x.2.IsChain fun e e' => e'.fromState = e.toState
  last : ∀ e, x.2.getLast? = some e → ∃ rt, x.1 = some rt ∧ rt.state = e.toState

section

variable {can : RuntimeState → Prop} {x y : Option AccountRuntime × List RuntimeEvent}

lemma Chained.step (h : Chained x) (hstep : RowStep can x y) : Chained y := by
  cases hstep with
  | same => exact h
  | created events =>
    refine ⟨h.chain, fun e he => ?_⟩
    obtain ⟨rt, hrt, -⟩ := h.last e he
    cases hrt
  | @moved rt rt' events e _ _ _ hfrom hevent _ =>
    constructor
    · refine List.isChain_append.mpr ⟨h.chain, List.isChain_singleton e, ?_⟩
      rintro e₀ he₀ e₁ he₁
      obtain rfl : e = e₁ := by simpa using he₁
      obtain ⟨rt₀, hrt₀, hstate⟩ := h.last e₀ he₀
      obtain rfl := Option.some.inj hrt₀
      exact hfrom.trans hstate
    · intro e₁ he₁
      obtain rfl : e = e₁ := by simpa using he₁
      exact ⟨rt', rfl, hevent.symm⟩
  | @saved rt rt' events _ hstate _ =>
    refine ⟨h.chain, fun e he => ?_⟩
    obtain ⟨rt₀, hrt₀, hlast⟩ := h.last e he
    obtain rfl := Option.some.inj hrt₀
    exact ⟨rt', rfl, hstate.trans hlast⟩

end

def AllChained (s : State) : Prop := ∀ k, Chained (s.runtime k)

lemma AllChained.step {s : State} (h : AllChained s) (env : Env) (a : Action) :
    AllChained (step env s a) := by
  obtain ⟨k, htouches⟩ := step_touches env s a
  intro k'
  by_cases hk : k' = k
  · subst hk
    exact (h k').step htouches.row
  · rw [htouches.others k' hk]
    exact h k'

/-! ### Moves after a stop -/

/-- The states to which a provisioning moves a runtime on. -/
def RuntimeState.rising : RuntimeState → Bool
  | .provisioning | .starting | .authenticating | .running => true
  | _ => false

/-- The step is one of the job call `call`, with a task that moves the runtime on. -/
structure MovesOn (s : State) (a : Action) (call : Call) : Prop where
  step : ∃ c reply, a = .step c reply ∧ s.calls c = some call
  job : call.claim.isSome = true
  rising : ∃ task rest state, call.tasks = task :: rest ∧ call.target task = some state ∧
    state.rising = true

/-- A driver that moves the runtime on finds the row as it was at its claim, or as it has itself left
it since. -/
def Undisturbed (s : State) (a : Action) : Prop :=
  ∀ call, MovesOn s a call → s.savesOf call.runtime = call.mine

/-- A driver does not move a runtime on that was stopped since the claim. -/
def HeedsStops (s : State) (a : Action) : Prop := ∀ call, MovesOn s a call → call.overtaken = false

section

variable {env : Env} {s s' : State} {c k : ℕ} {call : Call} {can : RuntimeState → Prop}

lemma savesOf_le_of_rowStep (h : RowStep can (s.runtime k) (s'.runtime k)) :
    s.savesOf k ≤ s'.savesOf k := by
  have hsaves : ∀ x y, RowStep can x y →
      (x.1.map (·.saves)).getD 0 ≤ (y.1.map (·.saves)).getD 0 := by
    rintro _ _ (_ | _ | ⟨-, -, hlt, -, -, -⟩ | ⟨-, -, hlt⟩)
    · exact le_rfl
    · exact le_rfl
    · exact hlt.le
    · exact hlt.le
  exact hsaves _ _ h

/-- A row is written more and more often. -/
lemma savesOf_le (env : Env) (s : State) (a : Action) (k : ℕ) : s.savesOf k ≤ (step env s a).savesOf k := by
  obtain ⟨k', htouches⟩ := step_touches env s a
  by_cases hk : k = k'
  · subst hk
    exact savesOf_le_of_rowStep htouches.row
  · have hrow := congrArg Prod.fst (htouches.others k hk)
    simp only [State.runtime] at hrow
    simp [State.savesOf, hrow]

structure CallFits (s : State) (call : Call) : Prop where
  mine : call.mine ≤ s.savesOf call.runtime
  overtaken : call.overtaken = true → call.mine < s.savesOf call.runtime

def HistoriesFit (s : State) : Prop := ∀ c call, s.calls c = some call → CallFits s call

lemma CallFits.mono (h : CallFits s call) (hle : s.savesOf call.runtime ≤ s'.savesOf call.runtime) :
    CallFits s' call where
  mine := h.mine.trans hle
  overtaken hover := (h.overtaken hover).trans_le hle

lemma HistoriesFit.of_calls (h : HistoriesFit s) (hle : ∀ k, s.savesOf k ≤ s'.savesOf k)
    (hcalls : ∀ c call, s'.calls c = some call → s.calls c = some call ∨
      call.overtaken = false ∧ call.mine = s'.savesOf call.runtime) : HistoriesFit s' := by
  intro c call hcall
  rcases hcalls c call hcall with hold | ⟨hover, hmine⟩
  · exact (h c call hold).mono (hle _)
  · exact ⟨hmine.le, fun hnot => by rw [hover] at hnot; cases hnot⟩

lemma HistoriesFit.remember (h : HistoriesFit s) (hcall : s.calls c = some call)
    (hgoes : GoesOn s s' c call) (hle : ∀ k, s.savesOf k ≤ s'.savesOf k) (stopped : Bool) :
    HistoriesFit (s'.remember s c call.runtime stopped) := by
  intro q call' hcall'
  simp only [State.remember, Option.map_eq_some_iff] at hcall'
  obtain ⟨before, hbefore, rfl⟩ := hcall'
  have hfit := h c call hcall
  by_cases hq : q = c
  · subst hq
    obtain ⟨hruntime, -, hmine, hover⟩ := hgoes.self before hbefore
    rw [if_pos rfl]
    -- the call knows its own writes as long as it knew the row before
    by_cases hknew : s.savesOf call.runtime = before.mine
    · rw [if_pos hknew]
      refine ⟨?_, fun hstopped => ?_⟩
      · simp [hruntime, State.savesOf, State.remember]
      · have hlt := hfit.overtaken (hover ▸ hstopped)
        rw [← hmine, ← hknew] at hlt
        exact absurd hlt (lt_irrefl _)
    · rw [if_neg hknew]
      refine ⟨?_, fun hstopped => ?_⟩
      · show before.mine ≤ s'.savesOf before.runtime
        rw [hmine, hruntime]
        exact hfit.mine.trans (hle _)
      · show before.mine < s'.savesOf before.runtime
        rw [hmine, hruntime]
        exact (hfit.overtaken (hover ▸ hstopped)).trans_le (hle _)
  · rw [hgoes.others q hq] at hbefore
    have hfit' := h q before hbefore
    rw [if_neg hq]
    split_ifs with hovertaken
    · obtain ⟨hruntime, -, hlt⟩ := hovertaken
      refine ⟨hfit'.mine.trans (hle _), fun _ => ?_⟩
      show before.mine < s'.savesOf before.runtime
      rw [hruntime]
      exact (hruntime ▸ hfit'.mine).trans_lt hlt
    · exact hfit'.mono (hle _)

lemma HistoriesFit.step (h : HistoriesFit s) (env : Env) (a : Action) : HistoriesFit (step env s a) := by
  have hle := savesOf_le env s a
  cases a with
  | tick seconds => exact h.of_calls hle fun _ _ => .inl
  | enqueue k op =>
    refine h.of_calls hle fun c call hcall => .inl ?_
    revert hcall
    simp only [TerminalProvisioning.step, State.enqueueOp]
    split_ifs <;> exact id
  | claim c j =>
    refine h.of_calls hle fun q call hcall => ?_
    simp only [TerminalProvisioning.step] at hcall ⊢
    unfold State.claimJob at hcall ⊢
    split at hcall
    next job hnone hjob =>
      split_ifs at hcall ⊢
      · exact .inl hcall
      · left
        simp only [State.failRuntime] at hcall
        split_ifs at hcall
        · simpa using hcall
        · exact hcall
      · exact .inl hcall
      · by_cases hq : q = c
        · subst hq
          right
          simp only [State.setCall, Function.update_self, Option.some.injEq] at hcall
          subst hcall
          exact ⟨rfl, rfl⟩
        · left
          simpa [State.setCall, Function.update_of_ne hq] using hcall
    · exact .inl hcall
  | request c k request =>
    refine h.of_calls hle fun q call hcall => ?_
    simp only [TerminalProvisioning.step] at hcall ⊢
    unfold State.beginRequest at hcall ⊢
    have hset : ∀ new : Call, (s.setCall c new).calls q = some call →
        s.calls q = some call ∨ q = c ∧ call = new := by
      intro new hcall
      by_cases hq : q = c
      · subst hq
        simp only [State.setCall, Function.update_self, Option.some.injEq] at hcall
        exact .inr ⟨rfl, hcall.symm⟩
      · left
        simpa [State.setCall, Function.update_of_ne hq] using hcall
    split at hcall
    next rt hnone hget =>
      split_ifs at hcall ⊢
      · exact .inl hcall
      · rcases hset _ hcall with hold | ⟨-, rfl⟩
        · exact .inl hold
        · exact .inr ⟨rfl, by simp [State.savesOf, State.setCall, hget]⟩
    next hnone hget =>
      split_ifs at hcall ⊢
      · rcases hset _ hcall with hold | ⟨-, rfl⟩
        · exact .inl hold
        · exact .inr ⟨rfl, by simp [State.savesOf, State.setCall, hget]⟩
      · exact .inl hcall
    · exact .inl hcall
  | step c reply =>
    simp only [TerminalProvisioning.step, stepNoted] at hle ⊢
    cases hcall : s.calls c with
    | none => exact h
    | some call =>
      rw [hcall] at hle
      exact h.remember hcall (goesOn_stepCall env hcall reply) hle _
  | crash c =>
    refine h.of_calls hle fun q call hcall => .inl ?_
    simp only [TerminalProvisioning.step, State.endCall, State.unlock] at hcall
    by_cases hq : q = c
    · subst hq
      simp at hcall
    · rwa [Function.update_of_ne hq] at hcall

end

/-! ### Runs -/

section

variable {env : Env} {s : State} {as : List Action}

lemma historiesFit_of_noCalls (h : ∀ c, s.calls c = none) : HistoriesFit s := by
  intro c call hcall
  rw [h c] at hcall
  cases hcall

end

/-! ### A quarantine that does not hold -/

/-- Accounts of one user each, and caps that play no part. -/
def demoEnv : Env where
  accounts := fun k =>
    { userId := k, accountNumber := "1001", brokerServer := none, brokerName := "Demo-1"
      isDemo := true, isActive := true, terminalNodeId := none }
  globalMaxActiveRuntimes := 5
  perUserMaxActiveRuntimes := fun _ => 1

def queuedState : State :=
  { init with
    runtimes := Table.empty.insert 1 { cohort := .beta, state := .queued }
    jobs := Table.empty.insert 1 { runtime := 1, op := .provision } }

/-- The provisioning has begun to materialise the runtime. -/
def materialising : List Action := [.claim 10 1, .step 10 {}, .step 10 {}, .step 10 {}]

/-- The operator quarantines the runtime, which stops it. -/
def quarantining : List Action :=
  [.request 20 1 (.quarantine "suspicious"), .step 20 {}, .step 20 {}]

lemma allChained_queuedState : AllChained queuedState := by
  intro k
  have hnone : (queuedState.runtime k).2 = [] := rfl
  constructor
  · rw [hnone]
    exact List.isChain_nil
  · intro e he
    rw [hnone] at he
    cases he

end TerminalProvisioning
end GuvFX
