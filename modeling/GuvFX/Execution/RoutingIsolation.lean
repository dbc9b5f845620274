/-
# Destinations that are isolated from each other

The router sends a signal to assignments that may have it, and to no others; an assignment that is bound to
another source can only become a destination of a signal in one way, when the choice among the assignments
that are bound to none has been ambiguous and is not any more.  With the fan-out, what is planned and
promoted on an account does not depend on the destinations on other accounts.  Two destinations on one
account share one plan, and there the first one decides.
-/
import GuvFX.Execution.AutoRouter

namespace GuvFX
namespace AutoRouter

open Checks Views
open Consumer (JobType JobStatus)
open Promotion (PlanStatus LegStatus ExecutionMode SymbolResolution)

/-! ### What is promised -/

/-- A signal of the source may go to the assignment. -/
structure Eligible (w : World) (mode : ExecutionMode) (source : String) (t : Target) : Prop where
  assigned : w.assignments.get t.1 = some t.2
  active : t.2.isActive = true
  stage : t.2.stage = .live
  tier : t.2.executionMode = assignmentModeFor mode
  account : (w.accounts t.2.accountId).row.isActive = true
  environment : (w.accounts t.2.accountId).row.isDemo = true ∨
    isLiveEnvironment (w.accounts t.2.accountId).row = true ∧ w.liveExecutionPermitted t.2.accountId = true
  source : t.2.signalSource = source ∨
    (∀ i a, w.assignments.get i = some a → a.signalSource ≠ source) ∧ t.2.signalSource = "" ∧
      (∀ u ∈ w.admitted (w.candidates mode ""), u = t) ∧
      (w.sourceConfigs.filter (·.autoDemoExecutionEnabled)).length ≤ 1

/-- An assignment is disabled in one way or another, without being bound to another source. -/
def Disables (w w' : World) (d : ℕ) (mode : ExecutionMode) : Prop :=
  ∃ f : StrategyAssignment → StrategyAssignment, (∀ a, (f a).signalSource = a.signalSource) ∧
    (∀ a, w.assignments.get d = some a → ¬ (w.routableBase mode (f a) = true ∧ (f a).isActive = true)) ∧
    w' = { w with assignments := w.assignments.modify d f }

/-- Two worlds that differ in one assignment, in what goes wrong for it, and in accounts other than `b`. -/
structure ChangedAt (w w' : World) (d b : ℕ) : Prop where
  settings : w'.toSettings = w.toSettings
  assignments : (w'.assignments.rows.filter fun e => e.1 ≠ d) = w.assignments.rows.filter fun e => e.1 ≠ d
  away : ∀ a, w.assignments.get d = some a → a.accountId ≠ b
  away' : ∀ a, w'.assignments.get d = some a → a.accountId ≠ b
  account : w'.accounts b = w.accounts b
  faults : ∀ i, i ≠ d → w'.faults i = w.faults i

def destinationsOn (w : World) (approval : PendingSignalApproval) (b : ℕ) : List Target :=
  (destinations w approval).filter fun t => t.2.accountId = b

section

variable {w w' : World} {mode : ExecutionMode} {source : String} {t : Target} {b d : ℕ}

/-! ### Which assignments are chosen -/

def World.fits (w : World) (mode : ExecutionMode) (source : String) (a : StrategyAssignment) : Bool :=
  decide (w.routableBase mode a ∧ a.signalSource = source ∧ a.isActive) &&
    (!w.hostedLiveExecutionEnabled || w.accountEnvAdmitted a.accountId)

def World.fitting (w : World) (mode : ExecutionMode) (source : String) : List Target :=
  w.assignments.rows.filter fun e => w.fits mode source e.2

lemma admitted_candidates (w : World) (mode : ExecutionMode) (source : String) :
    w.admitted (w.candidates mode source) = w.fitting mode source := by
  rw [World.admitted, World.candidates, Table.filter, World.fitting]
  cases hhosted : w.hostedLiveExecutionEnabled with
  | true =>
    rw [if_pos rfl, List.filter_filter]
    refine List.filter_congr fun e _ => ?_
    simp [World.fits, hhosted, Bool.and_comm]
  | false =>
    rw [if_neg Bool.false_ne_true]
    refine List.filter_congr fun e _ => ?_
    simp [World.fits, hhosted]

lemma fits_iff {a : StrategyAssignment} : w.fits mode source a = true ↔
    (w.routableBase mode a = true ∧ a.signalSource = source ∧ a.isActive = true) ∧
      (w.hostedLiveExecutionEnabled = true → w.accountEnvAdmitted a.accountId = true) := by
  rw [World.fits, Bool.and_eq_true, decide_eq_true_iff, Bool.or_eq_true, Bool.not_eq_true']
  cases w.hostedLiveExecutionEnabled <;> simp

lemma mem_fitting : t ∈ w.fitting mode source ↔
    t ∈ w.assignments.rows ∧ w.fits mode source t.2 = true := List.mem_filter

lemma claimed_iff : w.claimed source = true ↔
    source ≠ "" ∧ ∃ e ∈ w.assignments.rows, e.2.signalSource = source := by
  rw [World.claimed, decide_eq_true_iff]
  refine and_congr_right fun _ => ?_
  constructor
  · intro h
    obtain ⟨e, he⟩ := List.exists_mem_of_ne_nil _ h
    obtain ⟨he, hsource⟩ := List.mem_filter.mp he
    exact ⟨e, he, of_decide_eq_true hsource⟩
  · rintro ⟨e, he, hsource⟩
    exact List.ne_nil_of_mem (List.mem_filter.mpr ⟨he, decide_eq_true hsource⟩)

/-- The settings that keep an assignment that is bound to nothing from serving a source. -/
def World.Guarded (w : World) (source : String) : Prop :=
  source ≠ "" ∧ w.multiAccountRoutingEnabled = true ∧ (w.sourceConfig source).isSome = true ∨
    source ≠ "" ∧ 1 < (w.sourceConfigs.filter (·.autoDemoExecutionEnabled)).length

lemma uniqueAdmitted_eq_some : w.uniqueAdmitted (w.candidates mode source) = some t ↔
    w.fitting mode source = [t] := by
  rw [World.uniqueAdmitted, admitted_candidates]
  split
  · rename_i u hu
    simp [hu]
  · rename_i hne
    simpa using hne t

lemma mem_targets_unclaimed (h : w.claimed source = false) : t ∈ w.targets mode source ↔
    ¬ w.Guarded source ∧ w.fitting mode "" = [t] := by
  have htargets : w.targets mode source = (w.resolveTarget mode source).toList := by
    simp [World.targets, World.resolveTargets, h]
  rw [htargets, Option.mem_toList, World.resolveTarget, if_neg (by simp [h])]
  by_cases hmulti : source ≠ "" ∧ w.multiAccountRoutingEnabled = true ∧ (w.sourceConfig source).isSome = true
  · rw [if_pos hmulti]
    simp [World.Guarded, hmulti]
  · rw [if_neg hmulti]
    by_cases henabled : source ≠ "" ∧ 1 < (w.sourceConfigs.filter (·.autoDemoExecutionEnabled)).length
    · rw [if_pos henabled]
      simp [World.Guarded, henabled]
    · rw [if_neg henabled, uniqueAdmitted_eq_some]
      simp only [World.Guarded, hmulti, henabled, or_self, not_false_eq_true, true_and]

lemma mem_targets_claimed (h : w.claimed source = true) (ht : t ∈ w.targets mode source) :
    t ∈ w.fitting mode source := by
  rw [World.targets] at ht
  split at ht
  · rw [World.resolveTargets, if_pos h, admitted_candidates] at ht
    exact ht
  · rw [World.resolveTarget, if_pos h, Option.mem_toList, uniqueAdmitted_eq_some] at ht
    rw [ht]
    exact List.mem_singleton_self t

lemma isDemo_of_isDemoEnvironment {row : TradingAccount} (h : isDemoEnvironment row = true) :
    row.isDemo = true := by
  unfold isDemoEnvironment accountEnvironment at h
  split at h
  · rename_i henv
    split at henv
    · cases henv
    · split at henv
      · assumption
      · cases henv
  · cases h

lemma environment_of_fits {a : StrategyAssignment} (h : w.fits mode source a = true) :
    (w.accounts a.accountId).row.isDemo = true ∨
      isLiveEnvironment (w.accounts a.accountId).row = true ∧ w.liveExecutionPermitted a.accountId = true := by
  obtain ⟨⟨hbase, -, -⟩, hadmitted⟩ := fits_iff.mp h
  simp only [World.routableBase, decide_eq_true_eq] at hbase
  rcases hbase.2.2.2 with hhosted | hdemo
  · have henv := hadmitted hhosted
    simp only [World.accountEnvAdmitted, Bool.or_eq_true, Bool.and_eq_true] at henv
    exact henv.imp_left isDemo_of_isDemoEnvironment
  · exact .inl hdemo

/-- A destination may have the signal. -/
theorem eligible_of_mem_targets (ht : t ∈ w.targets mode source) : Eligible w mode source t := by
  have hfit : ∃ bound, t ∈ w.fitting mode bound ∧ (bound = source ∨
      w.claimed source = false ∧ bound = "" ∧ ¬ w.Guarded source ∧ w.fitting mode "" = [t]) := by
    cases hclaimed : w.claimed source with
    | true => exact ⟨source, mem_targets_claimed hclaimed ht, .inl rfl⟩
    | false =>
      obtain ⟨hguard, hone⟩ := (mem_targets_unclaimed hclaimed).mp ht
      exact ⟨"", by rw [hone]; exact List.mem_singleton_self t, .inr ⟨rfl, rfl, hguard, hone⟩⟩
  obtain ⟨bound, hmem, hbound⟩ := hfit
  obtain ⟨hrow, hfits⟩ := mem_fitting.mp hmem
  obtain ⟨⟨hbase, hsource, hactive⟩, -⟩ := fits_iff.mp hfits
  have henvironment := environment_of_fits hfits
  simp only [World.routableBase, decide_eq_true_eq] at hbase
  refine ⟨Table.get_eq_some_iff.mpr hrow, hactive, hbase.2.1, hbase.1, hbase.2.2.1, henvironment, ?_⟩
  rcases hbound with rfl | ⟨hclaimed, rfl, hguard, hone⟩
  · exact .inl hsource
  · by_cases hempty : source = ""
    · exact .inl (by rw [hsource, hempty])
    · right
      refine ⟨fun i a ha hbad => ?_, hsource, fun u hu => ?_, ?_⟩
      · have hclaims := claimed_iff.mpr ⟨hempty, (i, a), Table.mem_rows_of_get ha, hbad⟩
        rw [hclaimed] at hclaims
        cases hclaims
      · rw [admitted_candidates, hone] at hu
        exact List.mem_singleton.mp hu
      · by_contra hmany
        exact hguard (.inr ⟨hempty, not_le.mp hmany⟩)

/-! ### Disabled assignments -/

lemma fitting_modify {f : StrategyAssignment → StrategyAssignment}
    (hf : ∀ a, w.assignments.get d = some a → ¬ (w.routableBase mode (f a) = true ∧ (f a).isActive = true)) :
    ({ w with assignments := w.assignments.modify d f } : World).fitting mode source =
      (w.fitting mode source).filter fun e => e.1 ≠ d := by
  have hrows : ∀ rows : List Target, (∀ e ∈ rows, w.assignments.get e.1 = some e.2) →
      (rows.map fun e => if e.1 = d then (e.1, f e.2) else e).filter (fun e => w.fits mode source e.2) =
        (rows.filter fun e => w.fits mode source e.2).filter fun e => e.1 ≠ d := by
    intro rows hrows
    induction rows with
    | nil => rfl
    | cons e rows ih =>
      have ih := ih fun e' he' => hrows e' (List.mem_cons_of_mem e he')
      rw [List.map_cons, List.filter_cons, ih, List.filter_cons]
      by_cases hd : e.1 = d
      · -- the row of the disabled assignment does not fit
        have hnot : w.fits mode source (f e.2) ≠ true := fun hfits => by
          obtain ⟨⟨hbase, -, hactive⟩, -⟩ := fits_iff.mp hfits
          exact hf e.2 (by rw [← hd]; exact hrows e List.mem_cons_self) ⟨hbase, hactive⟩
        rw [if_pos hd, if_neg hnot]
        split
        · rw [List.filter_cons_of_neg (by simp [hd])]
        · rfl
      · rw [if_neg hd]
        split
        · rw [List.filter_cons_of_pos (by simp [hd])]
        · rfl
  exact hrows w.assignments.rows fun e he => Table.get_eq_some_iff.mpr he

/-- Disabling an assignment only makes another one that is not bound to the source a destination where no
assignment is bound to it, and the disabled one was in the way. -/
theorem disabled_ambiguous (h : Disables w w' d mode) (ht : t ∈ w'.targets mode source)
    (hbound : t.2.signalSource ≠ source) (hnew : t ∉ w.targets mode source) :
    (∀ i a, w.assignments.get i = some a → a.signalSource ≠ source) ∧
      ∃ a, w.assignments.get d = some a ∧ (d, a) ∈ w.admitted (w.candidates mode "") := by
  obtain ⟨f, hsource, hf, rfl⟩ := h
  set w' : World := { w with assignments := w.assignments.modify d f } with hw'
  have hclaimed' : w'.claimed source = false := by
    cases hclaimed : w'.claimed source with
    | false => rfl
    | true => exact absurd (fits_iff.mp (mem_fitting.mp (mem_targets_claimed hclaimed ht)).2).1.2.1 hbound
  obtain ⟨hguard, hone⟩ := (mem_targets_unclaimed hclaimed').mp ht
  have hempty : source ≠ "" := by
    rintro rfl
    have hmem : t ∈ w'.fitting mode "" := by rw [hone]; exact List.mem_singleton_self t
    exact hbound (fits_iff.mp (mem_fitting.mp hmem).2).1.2.1
  -- an assignment is bound to the same source after the change
  have hnone : ∀ i a, w.assignments.get i = some a → a.signalSource ≠ source := by
    intro i a ha hbad
    have hclaims : w'.claimed source = true := by
      refine claimed_iff.mpr ⟨hempty, ?_⟩
      by_cases hi : i = d
      · subst hi
        refine ⟨(i, f a), Table.get_eq_some_iff.mp ?_, (hsource a).trans hbad⟩
        rw [hw', Table.get_modify_self, ha]
        rfl
      · refine ⟨(i, a), Table.get_eq_some_iff.mp ?_, hbad⟩
        rw [hw', Table.get_modify_of_ne _ _ hi]
        exact ha
    rw [hclaimed'] at hclaims
    cases hclaims
  refine ⟨hnone, ?_⟩
  have hclaimed : w.claimed source = false := by
    cases hclaimed : w.claimed source with
    | false => rfl
    | true =>
      obtain ⟨-, e, he, hsame⟩ := claimed_iff.mp hclaimed
      exact absurd hsame (hnone e.1 e.2 (Table.get_eq_some_iff.mpr he))
  rw [hw', fitting_modify hf] at hone
  by_contra hno
  have hall : ∀ e ∈ w.fitting mode "", e.1 ≠ d := by
    rintro e he rfl
    refine hno ⟨e.2, Table.get_eq_some_iff.mpr (mem_fitting.mp he).1, ?_⟩
    rw [admitted_candidates]
    exact he
  rw [List.filter_eq_self.mpr fun e he => by simpa using hall e he] at hone
  exact hnew ((mem_targets_unclaimed hclaimed).mpr ⟨hguard, hone⟩)

/-! ### The rows of an account -/

section Rows

variable {db : Db} {approval : PendingSignalApproval} {telegramDate : Option Time} {accountId : ℕ}
  {plan : SignalExecutionPlan}

@[simp] lemma of_of (b : ℕ) (db : Db) : (db.of b).of b = db.of b := by
  simp [Db.of, List.filter_filter]

@[simp] lemma planOf_of (approvalId accountId : ℕ) (db : Db) :
    (db.of accountId).planOf approvalId accountId = db.planOf approvalId accountId := by
  rw [Db.planOf, of_of, Db.planOf]

@[simp] lemma countActive_of (symbol : String) :
    countActive (db.of accountId) accountId symbol = countActive db accountId symbol := by
  rw [countActive, of_of, countActive]

@[simp] lemma countToday_of (symbol source : String) :
    countToday w (db.of accountId) accountId symbol source = countToday w db accountId symbol source := by
  rw [countToday, of_of, countToday]

@[simp] lemma planGates_of :
    planGates w (db.of accountId) approval accountId = planGates w db approval accountId := by
  simp only [planGates, countActive_of, countToday_of]

@[simp] lemma validate_of : validate w mode (db.of plan.accountId) plan = validate w mode db plan := by
  simp only [validate, promotionEnv, of_of]

lemma of_addPlan_self (b : ℕ) (db : Db) (hb : plan.accountId = b) :
    ({ db with plans := db.plans ++ [plan] } : Db).of b =
      { db.of b with plans := (db.of b).plans ++ [plan] } := by
  simp [Db.of, List.filter_append, hb]

lemma of_addPlan_of_ne (b : ℕ) (db : Db) (hb : plan.accountId ≠ b) :
    ({ db with plans := db.plans ++ [plan] } : Db).of b = db.of b := by
  simp [Db.of, List.filter_append, hb]

lemma of_modifyPlan {f : SignalExecutionPlan → SignalExecutionPlan}
    (hf : ∀ row, (f row).accountId = row.accountId) (approvalId accountId b : ℕ) (db : Db) :
    (db.modifyPlan approvalId accountId f).of b = (db.of b).modifyPlan approvalId accountId f := by
  have hkept : ∀ row : SignalExecutionPlan,
      (if row.approvalId = approvalId ∧ row.accountId = accountId then f row else row).accountId =
        row.accountId := by
    intro row
    split
    · exact hf row
    · rfl
  simp only [Db.of, Db.modifyPlan, List.filter_map, Function.comp_def, hkept]

lemma modifyPlan_of_ne {f : SignalExecutionPlan → SignalExecutionPlan} {b : ℕ} (h : accountId ≠ b)
    (approvalId : ℕ) (db : Db) : (db.of b).modifyPlan approvalId accountId f = db.of b := by
  have hplans : ((db.of b).plans.map fun row =>
      if row.approvalId = approvalId ∧ row.accountId = accountId then f row else row) =
        (db.of b).plans.map id := by
    refine List.map_congr_left fun row hrow => if_neg fun hsame => h ?_
    rw [← hsame.2]
    simpa using (List.mem_filter.mp hrow).2
  rw [Db.modifyPlan, hplans, List.map_id]

lemma of_voidRejectedPlan (code : String) (b : ℕ) (db : Db) :
    (voidRejectedPlan db plan code).of b = voidRejectedPlan (db.of b) plan code :=
  of_modifyPlan (fun row => by split <;> rfl) plan.approvalId plan.accountId b db

lemma of_promote_self (db : Db) : (promote mode db plan).of plan.accountId =
    promote mode (db.of plan.accountId) plan := by
  have hplans := of_modifyPlan (f := fun row =>
    { row with status := .promoted, legs := row.legs.map fun leg => { leg with status := .promoted } })
    (fun _ => rfl) plan.approvalId plan.accountId plan.accountId db
  have hmodified := congrArg Db.plans hplans
  simp only [Db.of, Db.modifyPlan] at hmodified
  simp only [promote, Db.of, Db.modifyPlan, List.filter_append, hmodified, Db.mk.injEq, true_and, and_true,
    List.append_cancel_left_eq]
  refine List.filter_eq_self.mpr fun job hjob => ?_
  obtain ⟨leg, -, rfl⟩ := List.mem_map.mp hjob
  simp

lemma of_promote_of_ne {b : ℕ} (hb : plan.accountId ≠ b) (db : Db) :
    (promote mode db plan).of b = db.of b := by
  have hplans := (of_modifyPlan (f := fun row =>
    { row with status := .promoted, legs := row.legs.map fun leg => { leg with status := .promoted } })
    (fun _ => rfl) plan.approvalId plan.accountId b db).trans (modifyPlan_of_ne hb plan.approvalId db)
  have hmodified := congrArg Db.plans hplans
  simp only [Db.of, Db.modifyPlan] at hmodified
  simp only [promote, Db.of, Db.modifyPlan, List.filter_append, hmodified, Db.mk.injEq, true_and, and_true,
    List.append_right_eq_self, List.filter_eq_nil_iff]
  intro job hjob
  obtain ⟨leg, -, rfl⟩ := List.mem_map.mp hjob
  simpa using hb

lemma of_promoteOrVoid_self (fault : Fault) (db : Db) :
    (promoteOrVoid w mode fault db plan).of plan.accountId =
      promoteOrVoid w mode fault (db.of plan.accountId) plan := by
  unfold promoteOrVoid
  rw [validate_of]
  split
  · rfl
  · split
    · exact of_voidRejectedPlan _ _ db
    · split
      · exact of_voidRejectedPlan _ _ db
      · exact of_promote_self db

lemma of_promoteOrVoid_of_ne {b : ℕ} (hb : plan.accountId ≠ b) (fault : Fault) (db : Db) :
    (promoteOrVoid w mode fault db plan).of b = db.of b := by
  have hvoid : ∀ code, (voidRejectedPlan db plan code).of b = db.of b := fun code =>
    (of_voidRejectedPlan code b db).trans (modifyPlan_of_ne hb plan.approvalId db)
  unfold promoteOrVoid
  split
  · rfl
  · split
    · exact hvoid _
    · split
      · exact hvoid _
      · exact of_promote_of_ne hb db

lemma planDemoExecution_cases (w : World) (approval : PendingSignalApproval) (telegramDate : Option Time)
    (db : Db) (a : StrategyAssignment) :
    (∃ plan, plan.accountId = a.accountId ∧
      planDemoExecution w approval telegramDate a db = .ok (db, plan) ∧
        planDemoExecution w approval telegramDate a (db.of a.accountId) = .ok (db.of a.accountId, plan)) ∨
    (∃ code, planDemoExecution w approval telegramDate a db = .error code ∧
      planDemoExecution w approval telegramDate a (db.of a.accountId) = .error code) ∨
    ∃ plan, plan.accountId = a.accountId ∧
      planDemoExecution w approval telegramDate a db =
        .ok ({ db with plans := db.plans ++ [plan] }, plan) ∧
      planDemoExecution w approval telegramDate a (db.of a.accountId) =
        .ok ({ db.of a.accountId with plans := (db.of a.accountId).plans ++ [plan] }, plan) := by
  simp only [planDemoExecution, planOf_of, planGates_of]
  cases hplan : db.planOf approval.id a.accountId with
  | some plan =>
    left
    refine ⟨plan, ?_, rfl, rfl⟩
    have hmem := List.mem_of_find?_eq_some hplan
    simpa using (List.mem_filter.mp hmem).2
  | none =>
    right
    cases firstRefusal (planGates w db approval a.accountId) with
    | some code => exact .inl ⟨code, rfl, rfl⟩
    | none =>
      right
      refine ⟨newPlan w approval telegramDate a, ?_, rfl, rfl⟩
      unfold newPlan
      dsimp only
      (repeat' split) <;> rfl

def afterPlanning (w : World) (mode : ExecutionMode) (fault : Fault) (db : Db) (plan : SignalExecutionPlan) :
    Db :=
  if plan.status = .planned then promoteOrVoid w mode fault db plan else db

lemma of_afterPlanning_self (fault : Fault) (db : Db) :
    (afterPlanning w mode fault db plan).of plan.accountId =
      afterPlanning w mode fault (db.of plan.accountId) plan := by
  unfold afterPlanning
  split
  · exact of_promoteOrVoid_self fault db
  · rfl

lemma of_afterPlanning_of_ne {b : ℕ} (hb : plan.accountId ≠ b) (fault : Fault) (db : Db) :
    (afterPlanning w mode fault db plan).of b = db.of b := by
  unfold afterPlanning
  split
  · exact of_promoteOrVoid_of_ne hb fault db
  · rfl

lemma planAndPromoteOne_eq (db : Db) (t : Target) :
    planAndPromoteOne w approval telegramDate mode db t =
      if w.faults t.1 = .planning then db
      else
        match planDemoExecution w approval telegramDate t.2 db with
        | .error _ => db
        | .ok (db, plan) => afterPlanning w mode (w.faults t.1) db plan := rfl

/-- A destination is served with the rows of its account. -/
theorem confined_planAndPromoteOne (w : World) (approval : PendingSignalApproval)
    (telegramDate : Option Time) (mode : ExecutionMode) :
    Confined Db.of (fun t : Target => t.2.accountId) (planAndPromoteOne w approval telegramDate mode) := by
  constructor
  · intro db t b hb
    rw [planAndPromoteOne_eq]
    split
    · rfl
    · rcases planDemoExecution_cases w approval telegramDate db t.2 with ⟨plan, hplan, h, -⟩ | ⟨code, h, -⟩ | ⟨plan, hplan, h, -⟩ <;> rw [h]
      · exact of_afterPlanning_of_ne (by rwa [hplan]) _ db
      · exact (of_afterPlanning_of_ne (by rwa [hplan]) _ _).trans (of_addPlan_of_ne b db (by rwa [hplan]))
  · intro db t
    rw [planAndPromoteOne_eq, planAndPromoteOne_eq]
    split
    · rfl
    · rcases planDemoExecution_cases w approval telegramDate db t.2 with ⟨plan, hplan, h, h'⟩ | ⟨code, h, h'⟩ | ⟨plan, hplan, h, h'⟩ <;> rw [h, h'] <;> dsimp only
      · rw [← hplan]
        exact of_afterPlanning_self _ db
      · rw [← hplan, of_afterPlanning_self, of_addPlan_self plan.accountId db rfl]

/-! ### Worlds that differ elsewhere -/

lemma accountEnvAdmitted_congr (h : ChangedAt w w' d b) : w'.accountEnvAdmitted b = w.accountEnvAdmitted b := by
  have hhosted := congrArg Settings.hostedLiveExecutionEnabled h.settings
  simp only [World.accountEnvAdmitted, World.liveExecutionPermitted, h.account, hhosted]

lemma sourceConfig_congr (h : ChangedAt w w' d b) (source : String) :
    w'.sourceConfig source = w.sourceConfig source := by
  have hconfigs := congrArg Settings.sourceConfigs h.settings
  simp only [World.sourceConfig, hconfigs]

lemma planDemoExecution_congr (h : ChangedAt w w' d b) {a : StrategyAssignment} (ha : a.accountId = b) :
    planDemoExecution w' approval telegramDate a db = planDemoExecution w approval telegramDate a db := by
  have hgates : planGates w' db approval a.accountId = planGates w db approval a.accountId := by
    have hkill := congrArg Settings.killReason h.settings
    have hnow := congrArg Settings.now h.settings
    have hgroups := congrArg Settings.planMaxConcurrentGroups h.settings
    simp only [planGates, countToday, ha, h.account, accountEnvAdmitted_congr h, sourceConfig_congr h, hkill,
      hnow, hgroups]
  have hplan : newPlan w' approval telegramDate a = newPlan w approval telegramDate a := by
    have hnow := congrArg Settings.now h.settings
    simp only [newPlan, ha, h.account, sourceConfig_congr h, hnow]
  simp only [planDemoExecution, hgates, hplan]

lemma validate_congr (h : ChangedAt w w' d b) (hplan : plan.accountId = b) :
    validate w' mode db plan = validate w mode db plan := by
  have hpnl : todayRealizedPnl w' = todayRealizedPnl w := by
    funext rows
    rw [todayRealizedPnl, todayRealizedPnl, h.settings]
  have hsource : w'.sourceConfig = w.sourceConfig := funext (sourceConfig_congr h)
  have hlive : w'.liveExecutionPermitted b = w.liveExecutionPermitted b := by
    rw [World.liveExecutionPermitted, World.liveExecutionPermitted, h.settings, h.account]
  -- the settings are the same, and only the account of the plan is read
  simp only [validate, Promotion.validate, Promotion.validateChecks, Promotion.planChecks,
    Promotion.sizingCaps, promotionEnv, evaluatePromotionRisk, riskChecks, riskEnv, hplan]
  rw [hpnl, hsource, hlive, h.settings, h.account]

lemma planAndPromoteOne_congr (h : ChangedAt w w' d b) (ht : t.2.accountId = b) (hne : t.1 ≠ d) :
    planAndPromoteOne w' approval telegramDate mode db t =
      planAndPromoteOne w approval telegramDate mode db t := by
  rw [planAndPromoteOne_eq, planAndPromoteOne_eq, h.faults t.1 hne, planDemoExecution_congr h ht]
  have hafter : ∀ (fault : Fault) (db : Db) (plan : SignalExecutionPlan), plan.accountId = b →
      afterPlanning w' mode fault db plan = afterPlanning w mode fault db plan := by
    intro fault db plan hplan
    simp only [afterPlanning, promoteOrVoid, validate_congr h hplan]
  split
  · rfl
  · rcases planDemoExecution_cases w approval telegramDate db t.2 with
      ⟨plan, hplan, hrun, -⟩ | ⟨code, hrun, -⟩ | ⟨plan, hplan, hrun, -⟩ <;> rw [hrun]
    · exact hafter _ db plan (hplan.trans ht)
    · exact hafter _ _ plan (hplan.trans ht)

end Rows

/-! ### The destinations on an account -/

lemma fits_congr (h : ChangedAt w w' d b) {a : StrategyAssignment} (ha : a.accountId = b) :
    w'.fits mode source a = w.fits mode source a := by
  have hhosted := congrArg Settings.hostedLiveExecutionEnabled h.settings
  simp only [World.fits, World.routableBase, ha, h.account, accountEnvAdmitted_congr h, hhosted]

lemma rowsOn_congr (h : ChangedAt w w' d b) :
    (w'.assignments.rows.filter fun e => e.2.accountId = b) =
      w.assignments.rows.filter fun e => e.2.accountId = b := by
  have hskip : ∀ v : World, (∀ a, v.assignments.get d = some a → a.accountId ≠ b) →
      (v.assignments.rows.filter fun e => e.2.accountId = b) =
        (v.assignments.rows.filter fun e => e.1 ≠ d).filter fun e => e.2.accountId = b := by
    intro v hv
    rw [List.filter_filter]
    refine List.filter_congr fun e he => ?_
    by_cases hb : e.2.accountId = b
    · have hne : e.1 ≠ d := by
        rintro rfl
        exact hv e.2 (Table.get_eq_some_iff.mpr he) hb
      simp [hb, hne]
    · simp [hb]
  rw [hskip w h.away, hskip w' h.away', h.assignments]

lemma fittingOn_congr (h : ChangedAt w w' d b) :
    ((w'.fitting mode source).filter fun e => e.2.accountId = b) =
      (w.fitting mode source).filter fun e => e.2.accountId = b := by
  rw [World.fitting, World.fitting, List.filter_filter, List.filter_filter]
  have hcomm : ∀ v : World, (v.assignments.rows.filter fun e =>
      decide (e.2.accountId = b) && v.fits mode source e.2) =
        (v.assignments.rows.filter fun e => e.2.accountId = b).filter fun e => v.fits mode source e.2 := by
    intro v
    rw [List.filter_filter]
    exact List.filter_congr fun e _ => Bool.and_comm _ _
  rw [hcomm w', hcomm w, rowsOn_congr h]
  refine List.filter_congr fun e he => fits_congr h ?_
  simpa using (List.mem_filter.mp he).2

lemma targetsOn_congr (h : ChangedAt w w' d b) (hmulti : w.multiAccountRoutingEnabled = true)
    (hconfigured : (w.sourceConfig source).isSome = true) {a : StrategyAssignment}
    (hd : (d, a) ∈ w.targets mode source) :
    ((w'.targets mode source).filter fun t => t.2.accountId = b) =
      (w.targets mode source).filter fun t => t.2.accountId = b := by
  have hmulti' : w'.multiAccountRoutingEnabled = true := by
    rw [congrArg Settings.multiAccountRoutingEnabled h.settings]
    exact hmulti
  have hconfigured' : (w'.sourceConfig source).isSome = true := by rwa [sourceConfig_congr h]
  have hclaimedTargets : ∀ v : World, v.multiAccountRoutingEnabled = true → v.claimed source = true →
      v.targets mode source = v.fitting mode source := by
    intro v hv hclaimed
    rw [World.targets, if_pos hv, World.resolveTargets, if_pos hclaimed, admitted_candidates]
  cases hclaimed : w.claimed source with
  | true =>
    rw [hclaimedTargets w hmulti hclaimed, ← fittingOn_congr h]
    cases hclaimed' : w'.claimed source with
    | true => rw [hclaimedTargets w' hmulti' hclaimed']
    | false =>
      -- the source has lost its claim, and an unbound assignment does not serve a configured source
      have hsource : source ≠ "" := (claimed_iff.mp hclaimed).1
      have hnone : w'.targets mode source = [] := by
        refine List.eq_nil_iff_forall_not_mem.mpr fun t ht => ?_
        exact ((mem_targets_unclaimed hclaimed').mp ht).1 (.inl ⟨hsource, hmulti', hconfigured'⟩)
      have hfitting : w'.fitting mode source = [] := by
        refine List.eq_nil_iff_forall_not_mem.mpr fun t ht => ?_
        obtain ⟨hrow, hfits⟩ := mem_fitting.mp ht
        have hclaims := claimed_iff.mpr ⟨hsource, t, hrow, (fits_iff.mp hfits).1.2.1⟩
        rw [hclaimed'] at hclaims
        cases hclaims
      rw [hnone, hfitting]
  | false =>
    obtain ⟨hguard, hone⟩ := (mem_targets_unclaimed hclaimed).mp hd
    have hsource : source = "" := by
      by_contra hne
      exact hguard (.inl ⟨hne, hmulti, hconfigured⟩)
    have hclaimed' : w'.claimed source = false := by simp [World.claimed, hsource]
    have haway : a.accountId ≠ b := by
      have hmem : (d, a) ∈ w.fitting mode "" := by rw [hone]; exact List.mem_singleton_self _
      exact h.away a (Table.get_eq_some_iff.mpr (mem_fitting.mp hmem).1)
    have hnone : ∀ v : World, v.claimed source = false →
        ((v.fitting mode "").filter fun t => t.2.accountId = b) = [] →
        ((v.targets mode source).filter fun t => t.2.accountId = b) = [] := by
      intro v hv hempty
      refine List.filter_eq_nil_iff.mpr fun t ht hb => ?_
      have hmem : t ∈ (v.fitting mode "").filter fun t => t.2.accountId = b := by
        rw [((mem_targets_unclaimed hv).mp ht).2]
        exact List.mem_filter.mpr ⟨List.mem_singleton_self t, hb⟩
      rw [hempty] at hmem
      cases hmem
    have hempty : ((w.fitting mode "").filter fun t => t.2.accountId = b) = [] := by
      rw [hone]
      simp [haway]
    rw [hnone w hclaimed hempty, hnone w' hclaimed' (by rw [fittingOn_congr h, hempty])]

/-! ### A whole routing -/

section Routing

variable {approval : PendingSignalApproval} {telegramDate : Option Time} {db : Db}

lemma effectiveMode_ok (h : w.effectiveMode approval = .ok mode) :
    firstRefusal (w.modeGates approval) = none ∧ w.signalExecutionMode = some mode := by
  unfold World.effectiveMode at h
  split at h
  · cases h
  · cases h
  · rename_i hgates hmode
    split at h
    · cases h
    · cases h
      exact ⟨hgates, hmode⟩

lemma destinations_eq (hgates : firstRefusal (w.modeGates approval) = none)
    (hmode : w.signalExecutionMode = some mode) :
    destinations w approval = w.targets mode approval.source := by
  rw [destinations, World.effectiveMode, hgates, hmode]
  dsimp only
  split
  · rename_i heq
    split at heq
    · rename_i hnone
      exact hnone.symm
    · cases heq
  · rename_i heq
    split at heq
    · cases heq
    · cases heq
      rfl

lemma routeAcquiredSignal_eq (hgates : firstRefusal (w.modeGates approval) = none)
    (hmode : w.signalExecutionMode = some mode) :
    routeAcquiredSignal w approval telegramDate db =
      match approved w approval with
      | none => db
      | some approved => (w.targets mode approval.source).foldl
          (planAndPromoteOne w approved telegramDate mode) db := by
  rw [routeAcquiredSignal, World.effectiveMode, hgates, hmode]
  dsimp only
  split
  · rename_i heq happroved
    split at heq
    · cases heq
    · cases heq
      rw [happroved]
  · rename_i hne
    cases happroved : approved w approval with
    | none => rfl
    | some approved =>
      split at hne
      · rename_i hnone
        rw [hnone]
        rfl
      · exact absurd happroved (hne mode approved rfl)

lemma modeGates_congr (h : w'.toSettings = w.toSettings) :
    w'.modeGates approval = w.modeGates approval := by
  simp only [World.modeGates, World.sourceConfig]
  rw [h]

/-- What is routed, planned and promoted on an account does not depend on a destination on another one. -/
theorem isolated (h : ChangedAt w w' d b) (hmulti : w.multiAccountRoutingEnabled = true) {db' : Db}
    (hdb : db.of b = db'.of b) {a : StrategyAssignment} (hd : (d, a) ∈ destinations w approval) :
    destinationsOn w approval b = destinationsOn w' approval b ∧
      (routeAcquiredSignal w approval telegramDate db).of b =
        (routeAcquiredSignal w' approval telegramDate db').of b := by
  have harmed : ∃ mode, w.effectiveMode approval = .ok mode := by
    cases heffective : w.effectiveMode approval with
    | ok mode => exact ⟨mode, rfl⟩
    | error reason => simp [destinations, heffective] at hd
  obtain ⟨mode, heffective⟩ := harmed
  obtain ⟨hgates, hmode⟩ := effectiveMode_ok heffective
  have hgates' : firstRefusal (w'.modeGates approval) = none := by rw [modeGates_congr h.settings, hgates]
  have hmode' : w'.signalExecutionMode = some mode := by
    rw [congrArg Settings.signalExecutionMode h.settings]
    exact hmode
  have hconfigured : (w.sourceConfig approval.source).isSome = true := by
    have hsource := firstRefusal_eq_none_iff.mp hgates
      ((w.sourceConfig approval.source).any (·.autoDemoExecutionEnabled), "source_not_enabled")
      (by simp [World.modeGates])
    cases hconfig : w.sourceConfig approval.source with
    | none => simp [hconfig] at hsource
    | some config => rfl
  rw [destinations_eq hgates hmode] at hd
  have hon := targetsOn_congr h hmulti hconfigured hd
  refine ⟨?_, ?_⟩
  · rw [destinationsOn, destinationsOn, destinations_eq hgates hmode, destinations_eq hgates' hmode', hon]
  · rw [routeAcquiredSignal_eq hgates hmode, routeAcquiredSignal_eq hgates' hmode']
    have happroved : approved w' approval = approved w approval := by
      rw [approved, approved, congrArg Settings.systemActor h.settings, congrArg Settings.approves h.settings]
    rw [happroved]
    cases approved w approval with
    | none => exact hdb
    | some approved =>
      -- the destinations on the account are served in the same way, and the others do not matter
      refine (confined_planAndPromoteOne w approved telegramDate mode).view_congr
        (confined_planAndPromoteOne w' approved telegramDate mode) (fun rows t ht hb => ?_) hdb hon.symm
      refine (planAndPromoteOne_congr h hb ?_).symm
      rintro rfl
      exact h.away t.2 (eligible_of_mem_targets ht).assigned hb

end Routing

end

def sampleSettings : Settings where
  now := 10
  autoExecutionEnabled := true
  killReason := none
  signalExecutionMode := some .demo
  multiAccountRoutingEnabled := true
  hostedLiveExecutionEnabled := false
  symbolConflictPolicyEnabled := false
  riskRequireTerminalNode := false
  nodeActive := fun _ => true
  providerArmed := true
  confidenceOk := true
  systemActor := true
  approves := true
  sourceConfigs :=
    [{ source := "wayond", autoDemoExecutionEnabled := true, maxLotPerLeg := 2 / 100
       maxTotalLot := 6 / 100, totalLotTarget := 3 / 100, dailyGroupCap := 24 }]
  caps := {}
  planMaxConcurrentGroups := 10

def demoAccount : Account where
  row :=
    { userId := 1, accountNumber := "5001", brokerServer := none, isDemo := true, isActive := true
      terminalNodeId := some 1 }
  liveExecutionAuthorized := false
  canTradeSymbol := fun symbol => { accepted := true, reason := "", brokerSymbol := some symbol }
  executionGateRefusal := none
  isBrokerPaused := false
  orderCheck := fun _ _ => none
  symbolConflict := fun _ _ => none
  riskRaises := false

def assignmentOn (accountId : ℕ) (source : String) : StrategyAssignment where
  accountId := accountId
  isActive := true
  stage := .live
  executionMode := .autoDemo
  signalSource := source

def twoAssigned (first second : ℕ) (source : String) : World where
  toSettings := sampleSettings
  assignments := ⟨[(1, assignmentOn first source), (2, assignmentOn second source)], by simp⟩
  accounts := fun _ => demoAccount
  faults := fun _ => .none

def failing (w : World) : World := { w with faults := Function.update w.faults 1 .duplicate }

def sampleApproval : PendingSignalApproval where
  id := 7
  source := "wayond"
  status := .pendingApproval
  symbol := "XAUUSD"
  direction := "BUY"
  stopLoss := "2300"
  takeProfits := ["2310"]
  timestamp := 5

end AutoRouter
end GuvFX
