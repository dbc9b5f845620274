/-
# The reclaim of orphaned plans

A planned plan that nobody promotes holds a slot, and a sweep voids it once it is older than a
threshold.  The sweep goes by the moment at which the row was created, and a promotion by the
timestamp that the signal carries; the planner takes that timestamp from the payload and refuses
only what is too old.  So the sweep voids nothing but stale plans as long as the timestamp of no
plan that it finds is ahead of the creation by more than the threshold exceeds the age of a stale
signal.
-/
import Mathlib.Algebra.Order.Field.Basic
import Mathlib.Tactic.Linarith
import GuvFX.Execution.PromotionSystem

namespace GuvFX
namespace Promotion

open Runs Checks

/-! ### The planner -/

/-- An approved signal, as far as the planner reads it. -/
structure Approval where
  source : String
  symbol : String
  direction : String
  stopLoss : String
  takeProfits : List String
  rawPayload : List (String × String)
  createdAt : Time
  correlationId : String
  deriving DecidableEq, Repr

def timestampKeys : List String := ["signal_timestamp", "date", "timestamp"]

/-- The timestamp of a signal: the one that is given, or the first one of the payload that can be
read, or the creation of the approval.  The times of texts are read by `parse`. -/
def signalTimestamp (parse : String → Option Time) (approval : Approval)
    (override : Option (Option Time)) : Time :=
  match override with
  | some given => given.getD approval.createdAt
  | none =>
    (timestampKeys.findSome? fun key => (approval.rawPayload.lookup key).bind parse).getD
      approval.createdAt

def maxPlanLegs : ℕ := 3

def planSignal (approval : Approval) (sigTs now : Time) (split : ℕ → Option (List ℚ)) : Planning :=
  let tps := approval.takeProfits.filter (· ≠ "")
  let n := min tps.length maxPlanLegs
  if approval.stopLoss = "" then .held "missing_stop_loss"
  else if tps = [] then .held "missing_take_profit"
  else if signalMaxAgeSeconds < now - sigTs then .voided "stale_signal"
  else
    match split n with
    | none => .held "volume_split_invalid"
    | some lots => .planned ((tps.take n).zip lots)

def planRow (approval : Approval) (account : ℕ) (isDemo : Bool) (sigTs createdAt : Time) :
    SignalExecutionPlan where
  accountId := account
  source := approval.source
  symbol := approval.symbol.toUpper
  direction := approval.direction.toUpper
  stopLoss := approval.stopLoss
  isDemo := isDemo
  signalTimestamp := some sigTs
  createdAt := createdAt
  correlationId := approval.correlationId
  status := .planned

/-! ### Stale plans -/

/-- At the time `t` a promotion finds the signal of the plan too old. -/
def StaleAt (t : Time) (plan : SignalExecutionPlan) : Prop :=
  ∀ ts ∈ plan.signalTimestamp, signalMaxAgeSeconds < t - ts

variable {t t' : Time} {plan : SignalExecutionPlan}

lemma StaleAt.mono (h : StaleAt t plan) (hle : t ≤ t') : StaleAt t' plan :=
  fun ts hts => (h ts hts).trans_le (sub_le_sub_right hle ts)

lemma StaleAt.refused (h : StaleAt t plan) (env : Env) (mode : ExecutionMode)
    (legs : List ProposedOrderLeg) : (validate env t mode plan legs).isSome = true := by
  rw [← Option.not_isNone, Bool.not_eq_true', ← Bool.not_eq_true, Option.isNone_iff_eq_none]
  intro hnone
  have hall := firstRefusal_eq_none_iff.mp hnone
  have hplan : ∀ c ∈ planChecks env t mode plan legs, c.1 = true := fun c hc =>
    hall c (List.mem_append_left _ (List.mem_append_left _ hc))
  cases hts : plan.signalTimestamp with
  | none =>
    have hsome := hplan (plan.signalTimestamp.isSome, "no_signal_timestamp") (by simp [planChecks])
    rw [hts] at hsome
    cases hsome
  | some ts =>
    have hfresh := hplan (plan.signalTimestamp.all fun t' => t - t' ≤ signalMaxAgeSeconds,
      "stale_signal") (by simp [planChecks])
    rw [hts] at hfresh
    exact absurd (of_decide_eq_true hfresh) (not_le.mpr (h ts hts))

/-- A threshold that a creation has passed leaves every plan stale exactly when the timestamp is
ahead of the creation by no more than the threshold exceeds the age of a stale signal. -/
theorem stale_of_threshold_iff {createdAt ts threshold : Time} :
    (∀ now, createdAt < now - threshold → signalMaxAgeSeconds < now - ts) ↔
      ts ≤ createdAt + (threshold - signalMaxAgeSeconds) := by
  constructor
  · intro h
    by_contra hahead
    have hlt : createdAt + threshold < ts + signalMaxAgeSeconds := by linarith
    obtain ⟨now, hnow, hnow'⟩ := exists_between hlt
    have hstale := h now (by linarith)
    linarith
  · intro h now hnow
    linarith

/-! ### The plans that a sweep finds -/

variable {s : State} {a : Action}

lemma mem_orphaned {db : Db} {now threshold : Time} {filter : ReclaimFilter} {limit : ℕ}
    {plans : List ℕ} (h : orphanedPlannedPlans db now threshold filter limit = some plans) {k : ℕ}
    (hk : k ∈ plans) : ∃ plan, db.plans.get k = some plan ∧ plan.createdAt < now - threshold := by
  rw [orphanedPlannedPlans] at h
  split_ifs at h
  cases h
  have hmem := List.mem_of_mem_take hk
  rw [List.mem_insertionSort, List.mem_map] at hmem
  obtain ⟨⟨k', plan⟩, hfound, rfl⟩ := hmem
  obtain ⟨hget, hfilter⟩ := Table.mem_filter.mp hfound
  exact ⟨plan, hget, (of_decide_eq_true hfilter).2.1⟩

/-- The timestamps of the plans that a sweep finds are not ahead of their creation by more than the
threshold exceeds the age of a stale signal. -/
def NotAhead (s : State) : Action → Prop
  | .sweep _ threshold filter limit =>
    ∀ k ∈ (orphanedPlannedPlans s.db s.now threshold filter limit).getD [],
      ∀ plan ∈ s.db.plans.get k, ∀ ts ∈ plan.signalTimestamp,
        ts ≤ plan.createdAt + (threshold - signalMaxAgeSeconds)
  | _ => True

instance (s : State) : DecidablePred (NotAhead s)
  | .sweep _ threshold filter limit => inferInstanceAs (Decidable
      (∀ k ∈ (orphanedPlannedPlans s.db s.now threshold filter limit).getD [],
        ∀ plan ∈ s.db.plans.get k, ∀ ts ∈ plan.signalTimestamp,
          ts ≤ plan.createdAt + (threshold - signalMaxAgeSeconds)))
  | .setEnv _ | .tick _ | .createPlan .. | .load .. | .validate _ | .readLegs _ | .commit ..
  | .voidRejected _ | .command .. | .cancelPlan _ | .cancelJobs .. | .reclaim _ | .closePlan _
  | .workJob .. => .isTrue trivial

/-! ### The timestamps along a run -/

/-- The plans stay, with their timestamps. -/
def SameTimes (db db' : Db) : Prop :=
  ∀ k plan, db.plans.get k = some plan →
    ∃ plan', db'.plans.get k = some plan' ∧ plan'.signalTimestamp = plan.signalTimestamp

lemma step_sameTimes (s : State) (a : Action) : SameTimes s.db (step s a).db := by
  intro k plan hplan
  have hmoves := plan_step s a k
  rw [hplan] at hmoves
  generalize (step s a).db.plans.get k = row' at hmoves
  cases hmoves <;> exact ⟨_, rfl, rfl⟩

/-- The clock does not go back. -/
lemma now_le_step (s : State) (a : Action) : s.now ≤ (step s a).now := by
  cases a with
  | tick d => exact le_add_of_nonneg_right (Nat.cast_nonneg d)
  | setEnv | createPlan | closePlan | workJob => exact le_refl _
  | load | validate | readLegs | commit | voidRejected =>
    dsimp only [step, load, validateSession, commit, reject]
    repeat' split
    all_goals exact le_refl _
  | _ =>
    dsimp only [step, startCommand, applyCancel]
    repeat' split
    all_goals exact le_refl _

lemma sweeps_step {q k : ℕ} (h : k ∈ (step s a).sweeps q) :
    k ∈ s.sweeps q ∨ ∃ threshold filter limit plans, a = .sweep q threshold filter limit ∧
      orphanedPlannedPlans s.db s.now threshold filter limit = some plans ∧ k ∈ plans := by
  have hsame : (step s a).sweeps = s.sweeps → k ∈ s.sweeps q := fun hs => by rwa [hs] at h
  cases a with
  | setEnv | tick | createPlan | closePlan | workJob => exact .inl h
  | command | cancelPlan | cancelJobs =>
    refine .inl (hsame ?_)
    dsimp only [step, startCommand, applyCancel]
    repeat' split
    all_goals rfl
  | sweep q' threshold filter limit =>
    dsimp only [step] at h
    cases horphaned : orphanedPlannedPlans s.db s.now threshold filter limit with
    | none =>
      rw [horphaned] at h
      exact .inl h
    | some plans =>
      rw [horphaned] at h
      dsimp only at h
      by_cases hq : q = q'
      · subst hq
        rw [Function.update_self] at h
        exact .inr ⟨threshold, filter, limit, plans, rfl, horphaned, h⟩
      · rw [Function.update_of_ne hq] at h
        exact .inl h
  | reclaim q' =>
    left
    dsimp only [step] at h
    cases hsweep : s.sweeps q' with
    | nil =>
      rw [hsweep] at h
      exact h
    | cons k' rest =>
      rw [hsweep] at h
      dsimp only at h
      by_cases hq : q = q'
      · subst hq
        rw [Function.update_self] at h
        rw [hsweep]
        exact List.mem_cons_of_mem k' h
      · rw [Function.update_of_ne hq] at h
        exact h
  | _ =>
    refine .inl (hsame ?_)
    dsimp only [step, load, validateSession, commit, reject]
    repeat' split
    all_goals rfl

/-- The plans that sweeps have still to void are stale. -/
def SweptStale (s : State) : Prop :=
  ∀ q k, k ∈ s.sweeps q → ∃ plan, s.db.plans.get k = some plan ∧ StaleAt s.now plan

lemma sweptStale_step (h : SweptStale s) (ha : NotAhead s a) : SweptStale (step s a) := by
  intro q k hk
  have hfound : ∃ plan, s.db.plans.get k = some plan ∧ StaleAt s.now plan := by
    rcases sweeps_step hk with hold | ⟨threshold, filter, limit, plans, rfl, hplans, hmem⟩
    · exact h q k hold
    · obtain ⟨plan, hplan, hcreated⟩ := mem_orphaned hplans hmem
      refine ⟨plan, hplan, fun ts hts => ?_⟩
      have hahead : ts ≤ plan.createdAt + (threshold - signalMaxAgeSeconds) := by
        refine ha k ?_ plan hplan ts hts
        rw [hplans]
        exact hmem
      exact stale_of_threshold_iff.mpr hahead s.now hcreated
  obtain ⟨plan, hplan, hstale⟩ := hfound
  obtain ⟨plan', hplan', htimes⟩ := step_sameTimes s a k plan hplan
  refine ⟨plan', hplan', fun ts hts => ?_⟩
  rw [htimes] at hts
  exact (hstale.mono (now_le_step s a)) ts hts

/-! ### The claim about the reclaim -/

/-- Whenever the reclaim voids a planned plan, every promotion attempt of the plan from then on
finds its signal too old, and is refused. -/
def ReclaimedStale (s : State) (as : List Action) : Prop :=
  ∀ pre q post k plan, as = pre ++ .reclaim q :: post →
    (run step s pre).db.plans.get k = some plan → plan.status = .planned →
    Voided (step (run step s pre) (.reclaim q)).db k →
    ∀ t, (run step s pre).now ≤ t → StaleAt t plan ∧
      ∀ env mode legs, (validate env t mode plan legs).isSome = true

lemma mem_sweeps_of_reclaim {q k : ℕ} (hplan : s.db.plans.get k = some plan)
    (hplanned : plan.status = .planned) (hvoided : Voided (step s (.reclaim q)).db k) :
    k ∈ s.sweeps q := by
  obtain ⟨plan', hplan', hstatus⟩ := hvoided
  dsimp only [step] at hplan'
  cases hsweep : s.sweeps q with
  | nil =>
    rw [hsweep] at hplan'
    cases Option.some.inj (hplan.symm.trans hplan')
    rw [hplanned] at hstatus
    cases hstatus
  | cons k' rest =>
    rw [hsweep] at hplan'
    by_cases hk : k = k'
    · rw [hk]
      exact List.mem_cons_self
    · dsimp only [reclaimPlan, compareAndSet] at hplan'
      rw [Table.get_modify_of_ne _ _ hk] at hplan'
      cases Option.some.inj (hplan.symm.trans hplan')
      rw [hplanned] at hstatus
      cases hstatus

/-- The reclaim voids stale plans only, in every run in which no timestamp is too far ahead. -/
theorem reclaimedStale_of_notAhead (env : Env) (now : Time) (as : List Action)
    (h : StepsMeet step NotAhead (start env now) as) : ReclaimedStale (start env now) as := by
  rintro pre q post k plan rfl hplan hplanned hvoided t ht
  have hswept : SweptStale (run step (start env now) pre) := by
    refine run_invariant_of_meets (P := SweptStale) (fun s a hs ha => sweptStale_step hs ha) ?_
      (stepsMeet_append.mp h).1
    exact fun _ _ hk => nomatch hk
  obtain ⟨plan', hplan', hstale⟩ := hswept q k (mem_sweeps_of_reclaim hplan hplanned hvoided)
  cases Option.some.inj (hplan.symm.trans hplan')
  exact ⟨hstale.mono ht, (hstale.mono ht).refused⟩

/-! ### A payload from a clock that is ahead -/

/-- The plan of the step comes from the planner, which has read the clock before it inserts the
row. -/
def FromPlanner (parse : String → Option Time) (s : State) : Action → Prop
  | .createPlan _ plan planning => ∃ approval override account isDemo planNow split,
    approval.createdAt ≤ planNow ∧ planNow ≤ s.now ∧
      plan = planRow approval account isDemo (signalTimestamp parse approval override) s.now ∧
      planning = planSignal approval (signalTimestamp parse approval override) planNow split
  | _ => True

def sampleParse (text : String) : Option Time :=
  if text = "1970-01-01T00:30:00Z" then some 1800 else none

/-- A signal whose payload is dated half an hour after its approval. -/
def datedAhead : Approval where
  source := "wayond"
  symbol := "XAUUSD"
  direction := "BUY"
  stopLoss := "2300"
  takeProfits := ["2310"]
  rawPayload := [("date", "1970-01-01T00:30:00Z")]
  createdAt := 0
  correlationId := "c1"

/-- The plan of a signal waits for longer than the threshold, and the sweep voids it. -/
def orphanRun (sigTs : Time) : List Action :=
  [.createPlan 1 (planRow datedAhead 1 true sigTs 0)
      (planSignal datedAhead sigTs 0 fun _ => some [1 / 100]),
    .tick 1000, .sweep 0 900 {} 500, .reclaim 0]

/-- A plan that is dated at its approval is voided when it is stale. -/
theorem reclaimedStale_orphanRun : ReclaimedStale (start sampleEnv 0) (orphanRun 0) ∧
    Voided (run step (start sampleEnv 0) (orphanRun 0)).db 1 :=
  ⟨reclaimedStale_of_notAhead sampleEnv 0 (orphanRun 0) (by decide +kernel), by decide +kernel⟩

/-- The plan that the planner makes of the payload is voided while a promotion would still accept
it. -/
theorem reclaimedStale_broken :
    StepsMeet step (FromPlanner sampleParse) (start sampleEnv 0) (orphanRun 1800) ∧
      ¬ ReclaimedStale (start sampleEnv 0) (orphanRun 1800) ∧
      validate sampleEnv 1000 .demo (planRow datedAhead 1 true 1800 0)
        [{ planId := 1, legIndex := 1, takeProfit := "2310", lotSize := 1 / 100 }] = none := by
  refine ⟨⟨?_, trivial, trivial, trivial, trivial⟩, fun h => ?_, by decide +kernel⟩
  · have hts : signalTimestamp sampleParse datedAhead none = 1800 := by decide +kernel
    refine ⟨datedAhead, none, 1, true, 0, fun _ => some [1 / 100], le_refl _, le_refl _, ?_, ?_⟩
    · rw [hts]
      rfl
    · rw [hts]
  · have hvoided : Voided (step (run step (start sampleEnv 0) ((orphanRun 1800).take 3))
        (.reclaim 0)).db 1 := by decide +kernel
    have hplan : (run step (start sampleEnv 0) ((orphanRun 1800).take 3)).db.plans.get 1 =
        some (planRow datedAhead 1 true 1800 0) := by decide +kernel
    have hnow : (run step (start sampleEnv 0) ((orphanRun 1800).take 3)).now = 1000 := by
      decide +kernel
    obtain ⟨hstale, -⟩ := h _ 0 [] 1 _ rfl hplan rfl hvoided 1000 hnow.le
    have hage := hstale 1800 rfl
    revert hage
    decide +kernel

end Promotion
end GuvFX
