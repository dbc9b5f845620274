/-
# Runs of the router

Signals are routed one after the other, some of them again, under whatever settings and faults; in between
jobs and trades move on, and plans give up their slots.  A signal has at most one plan on an account that
it could go to, within the caps of its source; the order jobs are those of the legs of the promoted plans,
each leg once.
-/
import GuvFX.Execution.RoutingIsolation
import GuvFX.Execution.VolumeSplit

namespace GuvFX
namespace AutoRouter

open Consumer (JobStatus)
open Runs

inductive Action where
  | route (w : World) (approval : PendingSignalApproval) (telegramDate : Option Time)
  | report (status : ExecutionJob → JobStatus) (trades : List Trade)
  /-- Promoted plans are closed when their positions are, and planned ones are cancelled or reclaimed. -/
  | resolve (settled dropped : SignalExecutionPlan → Bool)

def step (db : Db) : Action → Db
  | .route w approval telegramDate => routeAcquiredSignal w approval telegramDate db
  | .report status trades =>
    { db with jobs := db.jobs.map fun job => { job with status := status job }, trades := trades }
  | .resolve settled dropped =>
    { db with plans := db.plans.map fun plan =>
        if plan.status = .promoted ∧ settled plan then { plan with status := .closed }
        else if plan.status = .planned ∧ dropped plan then { plan with status := .voided }
        else plan }

/-! ### What a run keeps -/

namespace SignalExecutionPlan

def key (plan : SignalExecutionPlan) : ℕ × ℕ := (plan.approvalId, plan.accountId)

/-- The indices and the sizes of the legs. -/
def legRows (plan : SignalExecutionPlan) : List (ℕ × ℚ) :=
  plan.legs.map fun leg => (leg.legIndex, leg.lotSize)

def lots (plan : SignalExecutionPlan) : List ℚ := plan.legRows.map (·.2)

def legKeys (plan : SignalExecutionPlan) : List (ℕ × Option (ℕ × ℕ)) :=
  plan.legRows.map fun leg => (plan.accountId, some (plan.approvalId, leg.1))

/-- The plan has been promoted; it may have been closed since. -/
def Acted (plan : SignalExecutionPlan) : Bool := plan.status = .promoted ∨ plan.status = .closed

/-- All but the status and its reason, and the statuses of the legs. -/
structure Same (plan row : SignalExecutionPlan) : Prop where
  approvalId : row.approvalId = plan.approvalId
  accountId : row.accountId = plan.accountId
  legRows : row.legRows = plan.legRows

end SignalExecutionPlan

open SignalExecutionPlan

def ExecutionJob.key (job : ExecutionJob) : ℕ × Option (ℕ × ℕ) := (job.accountId, job.leg)

/-- A few legs of at least a step, within the caps of the source and of the customer. -/
structure WithinCaps (cfg : SignalSourceConfig) (lotPerLeg : Option ℚ) (lots : List ℚ) : Prop where
  length : 0 < lots.length ∧ lots.length ≤ maxPlanLegs
  each : ∀ l ∈ lots, lotStep ≤ l ∧ l ≤ cfg.maxLotPerLeg ∧ ∀ lot ∈ lotPerLeg, l ≤ lot
  total : lots.sum ≤ cfg.maxTotalLot

/-- The legs are those of the signal as it was routed to the account. -/
def Sized (as : List Action) (plan : SignalExecutionPlan) : Prop :=
  ∃ w approval telegramDate, .route w approval telegramDate ∈ as ∧ approval.id = plan.approvalId ∧
    ∃ t ∈ destinations w approval, t.2.accountId = plan.accountId ∧
      ∃ cfg ∈ w.sourceConfig approval.source, WithinCaps cfg t.2.lotPerLeg plan.lots

/-- The invariant of the rows, after the actions `as`. -/
structure Inv (as : List Action) (db : Db) : Prop where
  single : (db.plans.map key).Nodup
  legs : ∀ plan ∈ db.plans, (plan.legRows.map (·.1)).Nodup
  sized : ∀ plan ∈ db.plans, plan.status = .planned ∨ plan.Acted → Sized as plan
  jobs : (db.jobs.map ExecutionJob.key).Perm ((db.plans.filter Acted).flatMap legKeys)

variable {as bs : List Action} {db : Db} {plan row : SignalExecutionPlan} {w : World} {mode : Promotion.ExecutionMode}
  {approval : PendingSignalApproval} {telegramDate : Option Time}

lemma SignalExecutionPlan.Same.key_eq (h : plan.Same row) : row.key = plan.key := by
  rw [key, h.approvalId, h.accountId, key]

lemma SignalExecutionPlan.Same.legKeys_eq (h : plan.Same row) : row.legKeys = plan.legKeys := by
  rw [legKeys, h.approvalId, h.accountId, h.legRows, legKeys]

lemma SignalExecutionPlan.Same.sized (h : plan.Same row) (hsized : Sized as plan) : Sized as row := by
  rw [Sized, lots, h.approvalId, h.accountId, h.legRows]
  exact hsized

lemma Inv.mono (h : Inv as db) (hsub : as ⊆ bs) : Inv bs db :=
  { h with
    sized := fun plan hplan hstatus => by
      obtain ⟨w, approval, telegramDate, hroute, hrest⟩ := h.sized plan hplan hstatus
      exact ⟨w, approval, telegramDate, hsub hroute, hrest⟩ }

/-- The rows change nothing but their statuses, and none of them is promoted. -/
lemma Inv.map (h : Inv as db) {f : SignalExecutionPlan → SignalExecutionPlan} (hsame : ∀ row, Same row (f row))
    (hacted : ∀ row, (f row).Acted = row.Acted) (hplanned : ∀ row, (f row).status = .planned → row.status = .planned)
    (trades : List Trade) : Inv as { db with plans := db.plans.map f, trades := trades } where
  single := by
    rw [List.map_map, show key ∘ f = key from funext fun row => (hsame row).key_eq]
    exact h.single
  legs := List.forall_mem_map.mpr fun row hrow => (hsame row).legRows ▸ h.legs row hrow
  sized := List.forall_mem_map.mpr fun row hrow hstatus =>
    (hsame row).sized (h.sized row hrow (hstatus.imp (hplanned row) fun ha => hacted row ▸ ha))
  jobs := by
    rw [List.filter_map, List.flatMap_map, show Acted ∘ f = Acted from funext hacted,
      show (fun row => (f row).legKeys) = legKeys from funext fun row => (hsame row).legKeys_eq]
    exact h.jobs

def SignalExecutionPlan.promoted (row : SignalExecutionPlan) : SignalExecutionPlan :=
  { row with status := .promoted, legs := row.legs.map fun leg => { leg with status := .promoted } }

lemma same_promoted (row : SignalExecutionPlan) : row.Same row.promoted :=
  ⟨rfl, rfl, by simp [promoted, legRows, Function.comp_def]⟩

lemma plans_promote (mode : Promotion.ExecutionMode) {l r : List SignalExecutionPlan}
    (hplans : db.plans = l ++ plan :: r) (hnew : ∀ row ∈ l ++ r, row.key ≠ plan.key) :
    (promote mode db plan).plans = l ++ plan.promoted :: r := by
  let f (row : SignalExecutionPlan) : SignalExecutionPlan :=
    if row.approvalId = plan.approvalId ∧ row.accountId = plan.accountId then row.promoted else row
  have hf : ∀ row ∈ l ++ r, f row = row := fun row hrow =>
    if_neg fun hkey => hnew row hrow (Prod.ext hkey.1 hkey.2)
  have hl : l.map f = l := (List.map_congr_left fun row hrow => hf row (List.mem_append_left r hrow)).trans l.map_id'
  have hr : r.map f = r := (List.map_congr_left fun row hrow => hf row (List.mem_append_right l hrow)).trans r.map_id'
  change db.plans.map f = _
  rw [hplans, List.map_append, List.map_cons, hl, hr]
  simp [f]

/-- A planned row becomes a promoted one, with the jobs of its legs. -/
lemma Inv.promote (h : Inv as db) (hplan : plan ∈ db.plans) (hstatus : plan.status = .planned) :
    Inv as (promote mode db plan) := by
  obtain ⟨l, r, hplans⟩ := List.append_of_mem hplan
  have hsame := same_promoted plan
  have hsingle := h.single
  rw [hplans, List.map_append, List.map_cons, List.nodup_middle, List.nodup_cons, ← List.map_append] at hsingle
  have hrows := plans_promote mode hplans fun row hrow hkey =>
    hsingle.1 (hkey ▸ List.mem_map_of_mem hrow)
  have hkept {P : SignalExecutionPlan → Prop} (hold : ∀ row ∈ db.plans, P row)
      (hnew : P plan → P plan.promoted) : ∀ row ∈ (AutoRouter.promote mode db plan).plans, P row := by
    rw [hrows]
    rw [hplans] at hold
    simp only [List.forall_mem_append, List.forall_mem_cons] at hold ⊢
    exact ⟨hold.1, hnew hold.2.1, hold.2.2⟩
  refine ⟨?_, hkept h.legs fun hlegs => hsame.legRows ▸ hlegs, hkept h.sized fun hsized _ =>
    hsame.sized (hsized (.inl hstatus)), ?_⟩
  · rw [hrows, List.map_append, List.map_cons, hsame.key_eq, List.nodup_middle, List.nodup_cons,
      ← List.map_append]
    exact hsingle
  · have hjobs := h.jobs
    have hnew : (AutoRouter.promote mode db plan).jobs.map ExecutionJob.key =
        db.jobs.map ExecutionJob.key ++ plan.legKeys := by
      simp [AutoRouter.promote, Db.modifyPlan, ExecutionJob.key, legKeys, legRows, Function.comp_def]
    rw [hplans, List.filter_append, List.filter_cons_of_neg (by simp [Acted, hstatus]), List.flatMap_append] at hjobs
    rw [hrows, hnew, List.filter_append, List.filter_cons_of_pos (by simp [promoted, Acted]), List.flatMap_append,
      List.flatMap_cons, hsame.legKeys_eq]
    refine (hjobs.append_right _).trans ?_
    rw [List.append_assoc]
    exact List.perm_append_comm.append_left _

/-! ### Planning -/

lemma newPlan_same (w : World) (approval : PendingSignalApproval) (telegramDate : Option Time)
    (a : StrategyAssignment) :
    (newPlan w approval telegramDate a).key = (approval.id, a.accountId) ∧
      (newPlan w approval telegramDate a).Acted = false := by
  unfold newPlan
  dsimp only
  (repeat' split) <;> exact ⟨rfl, rfl⟩

lemma lots_of_zip {tps : List String} {lots : List ℚ} (hlen : lots.length ≤ tps.length) :
    ((tps.zip lots).zipIdx.map fun leg => leg.1.2) = lots := by
  rw [show (fun leg : (String × ℚ) × ℕ => leg.1.2) = Prod.snd ∘ Prod.fst from rfl, ← List.map_map,
    List.zipIdx_map_fst, List.map_snd_zip hlen]

lemma withinCaps_of_split {cfg : SignalSourceConfig} {a : StrategyAssignment} {n : ℕ} {lots : List ℚ}
    (h : splitVolume (legSizing cfg a n).1 n (legSizing cfg a n).2 cfg.maxTotalLot = some lots) :
    lots.length = n ∧ WithinCaps cfg a.lotPerLeg lots := by
  obtain ⟨⟨hpos, hmax, -⟩, hsplit⟩ := splitVolume_eq_some_iff.mp h
  refine ⟨hsplit.length, ⟨hsplit.length ▸ hpos, hsplit.length ▸ hmax⟩, fun l hl => ?_,
    hsplit.sum_le.trans ((min_le_right _ _).trans (min_le_right _ _))⟩
  obtain ⟨k, hk, hstep⟩ := hsplit.step l hl
  have hle := hsplit.within l hl
  refine ⟨?_, ?_⟩
  · rw [hstep]
    exact le_mul_of_one_le_left lotStep_pos.le (by exact_mod_cast hk)
  · rw [legSizing] at hle
    cases hlot : a.lotPerLeg with
    | none => rw [hlot] at hle; exact ⟨hle, nofun⟩
    | some lot =>
      rw [hlot] at hle
      refine ⟨hle.trans (min_le_right _ _), ?_⟩
      rintro lot' ⟨⟩
      exact hle.trans (min_le_left _ _)

lemma newPlan_legs (w : World) (approval : PendingSignalApproval) (telegramDate : Option Time)
    (a : StrategyAssignment) :
    ((newPlan w approval telegramDate a).legRows.map (·.1)).Nodup ∧
      ((newPlan w approval telegramDate a).status = .planned →
        ∃ cfg ∈ w.sourceConfig approval.source,
          WithinCaps cfg a.lotPerLeg (newPlan w approval telegramDate a).lots) := by
  unfold newPlan
  dsimp only
  split_ifs
  iterate 3 exact ⟨List.nodup_nil, nofun⟩
  split
  · exact ⟨List.nodup_nil, nofun⟩
  · rename_i lots hlots
    obtain ⟨cfg, hcfg, hsplit⟩ := Option.bind_eq_some_iff.mp hlots
    obtain ⟨hlen, hcaps⟩ := withinCaps_of_split hsplit
    refine ⟨?_, fun _ => ⟨cfg, hcfg, ?_⟩⟩
    · rw [legRows, List.map_map, List.map_map]
      change (List.map ((· + 1) ∘ Prod.snd) _).Nodup
      rw [← List.map_map, List.zipIdx_map_snd]
      exact (List.nodup_range').map (add_left_injective 1)
    · rw [SignalExecutionPlan.lots, legRows, List.map_map, List.map_map]
      change WithinCaps cfg a.lotPerLeg (List.map (fun leg : (String × ℚ) × ℕ => leg.1.2) _)
      rw [lots_of_zip]
      · exact hcaps
      · simp [hlen]

lemma Inv.addPlan (h : Inv as db) (hroute : .route w approval telegramDate ∈ as) {t : Target}
    (ht : t ∈ destinations w approval) {approval' : PendingSignalApproval} (hid : approval'.id = approval.id)
    (hsource : approval'.source = approval.source) (hnew : db.planOf approval'.id t.2.accountId = none) :
    Inv as { db with plans := db.plans ++ [newPlan w approval' telegramDate t.2] } := by
  obtain ⟨hkey, hacted⟩ := newPlan_same w approval' telegramDate t.2
  obtain ⟨hlegs, hcaps⟩ := newPlan_legs w approval' telegramDate t.2
  generalize newPlan w approval' telegramDate t.2 = plan at *
  refine ⟨?_, ?_, ?_, ?_⟩
  · rw [List.map_append, List.map_singleton, ← List.concat_eq_append, List.nodup_concat]
    refine ⟨fun hmem => ?_, h.single⟩
    obtain ⟨row, hrow, heq⟩ := List.mem_map.mp hmem
    obtain ⟨happroval, haccount⟩ := Prod.mk.inj (heq.trans hkey)
    refine List.find?_eq_none.mp hnew row (List.mem_filter.mpr ⟨hrow, ?_⟩) ?_
    · exact decide_eq_true haccount
    · exact decide_eq_true happroval
  · exact List.forall_mem_append.mpr ⟨h.legs, List.forall_mem_singleton.mpr hlegs⟩
  · refine List.forall_mem_append.mpr ⟨h.sized, List.forall_mem_singleton.mpr fun hstatus => ?_⟩
    obtain ⟨cfg, hcfg, hwithin⟩ := hcaps (hstatus.resolve_right (by simp [hacted]))
    exact ⟨w, approval, telegramDate, hroute, hid.symm.trans (congrArg Prod.fst hkey).symm, t, ht,
      (congrArg Prod.snd hkey).symm, cfg, hsource ▸ hcfg, hwithin⟩
  · rw [List.filter_append, List.filter_cons_of_neg (by simp [hacted]), List.filter_nil, List.append_nil]
    exact h.jobs

/-! ### The router -/

lemma Inv.voidRejectedPlan (h : Inv as db) (code : String) : Inv as (voidRejectedPlan db plan code) := by
  refine h.map (fun row => ?_) (fun row => ?_) (fun row => ?_) db.trades
  · dsimp only
    split_ifs <;> exact ⟨rfl, rfl, rfl⟩
  · dsimp only
    split_ifs with hkey hstatus
    · simp [Acted, hstatus]
    · rfl
    · rfl
  · dsimp only
    split_ifs
    · exact nofun
    · exact id
    · exact id

lemma Inv.planAndPromoteOne (h : Inv as db) (hroute : .route w approval telegramDate ∈ as) {t : Target}
    (ht : t ∈ destinations w approval) {approval' : PendingSignalApproval} (hid : approval'.id = approval.id)
    (hsource : approval'.source = approval.source) :
    Inv as (planAndPromoteOne w approval' telegramDate mode db t) := by
  -- what is done with the plan, once it is in a row
  have hafter : ∀ {db : Db} {plan : SignalExecutionPlan}, Inv as db → plan ∈ db.plans →
      Inv as (afterPlanning w mode (w.faults t.1) db plan) := by
    intro db plan h hplan
    unfold afterPlanning
    split_ifs with hstatus
    · unfold promoteOrVoid
      split
      · exact h
      · split
        · exact h.voidRejectedPlan _
        · split
          · exact h.voidRejectedPlan _
          · exact h.promote hplan hstatus
    · exact h
  rw [planAndPromoteOne_eq, planDemoExecution]
  split_ifs
  · exact h
  · cases hplan : db.planOf approval'.id t.2.accountId with
    | some plan =>
      exact hafter h (List.mem_of_mem_filter (List.mem_of_find?_eq_some hplan))
    | none =>
      dsimp only
      split
      · rename_i hrefused
        split at hrefused
        · exact h
        · cases hrefused
      · rename_i db' plan hplanned
        split at hplanned
        · cases hplanned
        · cases hplanned
          exact hafter (h.addPlan hroute ht hid hsource hplan) (by simp)

lemma approved_same {approval' : PendingSignalApproval} (h : approved w approval = some approval') :
    approval'.id = approval.id ∧ approval'.source = approval.source := by
  unfold approved at h
  (repeat' split at h) <;> cases h <;> exact ⟨rfl, rfl⟩

lemma inv_step (h : Inv as db) (a : Action) : Inv (as ++ [a]) (step db a) := by
  have h' : Inv (as ++ [a]) db := h.mono (List.subset_append_left _ _)
  cases a with
  | route w approval telegramDate =>
    simp only [step, routeAcquiredSignal]
    split
    · rename_i mode approval' hmode happroved
      obtain ⟨hid, hsource⟩ := approved_same happroved
      refine List.foldlRecOn _ _ h' fun db hdb t ht => ?_
      have hmem : t ∈ destinations w approval := by
        rw [destinations, hmode]
        exact ht
      exact hdb.planAndPromoteOne (by simp) hmem hid hsource
    · exact h'
  | report status trades =>
    have hkeys : (db.jobs.map fun job => { job with status := status job }).map ExecutionJob.key =
        db.jobs.map ExecutionJob.key := List.map_map
    exact { h' with jobs := hkeys ▸ h'.jobs }
  | resolve settled dropped =>
    refine h'.map (fun row => ?_) (fun row => ?_) (fun row => ?_) db.trades
    · split_ifs <;> exact ⟨rfl, rfl, rfl⟩
    · split_ifs with hpromoted hplanned
      · simp [Acted, hpromoted.1]
      · simp [Acted, hplanned.1]
      · rfl
    · split_ifs
      · intro h
        cases h
      · intro h
        cases h
      · exact id

lemma inv_run (as : List Action) : Inv as (run step {} as) := by
  induction as using List.reverseRecOn with
  | nil => exact ⟨List.nodup_nil, by simp, by simp, .nil⟩
  | append_singleton as a ih =>
    rw [run_concat]
    exact inv_step ih a

/-- **The jobs of a run.** -/
theorem jobs_of_run (as : List Action) :
    ((run step {} as).plans.map key).Nodup ∧ ((run step {} as).jobs.map ExecutionJob.key).Nodup ∧
      ((run step {} as).jobs.map ExecutionJob.key).Perm
        (((run step {} as).plans.filter Acted).flatMap legKeys) := by
  have h := inv_run as
  refine ⟨h.single, h.jobs.nodup_iff.mpr (List.nodup_flatMap.mpr ⟨fun plan hplan => ?_, ?_⟩), h.jobs⟩
  · refine List.Nodup.of_map (fun k => (k.2.map (·.2)).getD 0) ?_
    rw [legKeys, List.map_map]
    exact h.legs plan (List.mem_of_mem_filter hplan)
  · refine (List.Pairwise.of_map key (fun _ _ => id) h.single).filter _ |>.imp fun hne k hk hk' => ?_
    obtain ⟨leg, -, rfl⟩ := List.mem_map.mp hk
    obtain ⟨leg', -, heq⟩ := List.mem_map.mp hk'
    simp only [Prod.mk.injEq, Option.some.injEq] at heq
    exact hne (Prod.ext heq.2.1.symm heq.1.symm)

/-- **The sizes of the legs.** -/
theorem sized_of_run (as : List Action) (plan : SignalExecutionPlan) (hplan : plan ∈ (run step {} as).plans)
    (hstatus : plan.status = .planned ∨ plan.Acted) : Sized as plan :=
  (inv_run as).sized plan hplan hstatus

/-- The signal of the job has been routed when it could go to the account. -/
def Entitled (as : List Action) (job : ExecutionJob) : Prop :=
  ∃ w approval telegramDate mode, .route w approval telegramDate ∈ as ∧ w.effectiveMode approval = .ok mode ∧
    job.leg.map (·.1) = some approval.id ∧ ∃ t, t.2.accountId = job.accountId ∧ Eligible w mode approval.source t

/-- **The accounts of the jobs.** -/
theorem entitled_of_job (as : List Action) (job : ExecutionJob) (hjob : job ∈ (run step {} as).jobs) :
    Entitled as job := by
  have h := inv_run as
  obtain ⟨plan, hplan, hkey⟩ := List.mem_flatMap.mp (h.jobs.subset (List.mem_map_of_mem hjob))
  obtain ⟨hmem, hacted⟩ := List.mem_filter.mp hplan
  obtain ⟨leg, -, hleg⟩ := List.mem_map.mp hkey
  obtain ⟨haccounts, hlegs⟩ := Prod.mk.inj hleg
  obtain ⟨w, approval, telegramDate, hroute, hid, t, ht, haccount, -⟩ := h.sized plan hmem (.inr hacted)
  unfold destinations at ht
  split at ht
  · cases ht
  · rename_i mode hmode
    exact ⟨w, approval, telegramDate, mode, hroute, hmode, by rw [← hlegs, hid]; rfl, t,
      haccount.trans haccounts, eligible_of_mem_targets ht⟩

/-- The signal of two customers is routed twice. -/
def routedTwice : List Action :=
  [.route (twoAssigned 1 2 "wayond") sampleApproval none, .route (twoAssigned 1 2 "wayond") sampleApproval none]

theorem sized_of_run_routedTwice :
    ∃ plan ∈ (run step {} routedTwice).plans, plan.Acted ∧ Sized routedTwice plan := by
  obtain ⟨plan, hplan, hacted⟩ : ∃ plan ∈ (run step {} routedTwice).plans, plan.Acted = true := by
    decide +kernel
  exact ⟨plan, hplan, hacted, sized_of_run routedTwice plan hplan (.inr hacted)⟩

theorem entitled_of_job_routedTwice : ∃ job ∈ (run step {} routedTwice).jobs, Entitled routedTwice job := by
  obtain ⟨job, hjob⟩ := List.exists_mem_of_ne_nil (run step {} routedTwice).jobs (by decide +kernel)
  exact ⟨job, hjob, entitled_of_job routedTwice job hjob⟩

end AutoRouter
end GuvFX
