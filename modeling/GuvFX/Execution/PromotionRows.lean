/-
# The rows behind a promotion

What every writer keeps: a leg belongs to a plan, a leg that has a job has one that names it, a job
names a leg that has one, and a plan whose legs have jobs has been promoted.  All the writers but
the promotion leave the legs alone; the promotion gives a job to every leg that its session has
seen without one.
-/
import GuvFX.Execution.Promotion

namespace GuvFX
namespace Promotion

/-! ### Well-linked rows -/

/-- The legs, their plans and their jobs name each other. -/
structure Linked (db : Db) : Prop where
  legPlan : ∀ l leg, db.legs.get l = some leg → leg.planId ∈ db.plans.keys
  legKey : ∀ l l' leg leg', db.legs.get l = some leg → db.legs.get l' = some leg' →
    leg.planId = leg'.planId → leg.legIndex = leg'.legIndex → l = l'
  legJob : ∀ l leg j, db.legs.get l = some leg → leg.executionJobId = some j →
    ∃ job, db.jobs.get j = some job ∧ job.payload.planId = leg.planId ∧
      job.payload.legIndex = leg.legIndex
  jobLeg : ∀ j job, db.jobs.get j = some job → ∃ l leg, db.legs.get l = some leg ∧
    leg.planId = job.payload.planId ∧ leg.legIndex = job.payload.legIndex ∧
      leg.executionJobId ≠ none

def JobsPromoted (db : Db) : Prop :=
  ∀ l leg, db.legs.get l = some leg → leg.executionJobId ≠ none →
    ∃ plan, db.plans.get leg.planId = some plan ∧
      (plan.status = .promoted ∨ plan.status = .closed)

def OneJobPerLeg (db : Db) : Prop :=
  ∀ j j' job job', db.jobs.get j = some job → db.jobs.get j' = some job' →
    job.payload.planId = job'.payload.planId → job.payload.legIndex = job'.payload.legIndex →
      j = j'

def Voided (db : Db) (k : ℕ) : Prop := ∃ plan, db.plans.get k = some plan ∧ plan.status = .voided

instance (db : Db) (k : ℕ) : Decidable (Voided db k) :=
  match h : db.plans.get k with
  | none => .isFalse (by rintro ⟨plan, hplan, -⟩; rw [h] at hplan; cases hplan)
  | some plan =>
    if hs : plan.status = .voided then .isTrue ⟨plan, h, hs⟩
    else .isFalse (by rintro ⟨plan', hplan', hs'⟩; rw [h] at hplan'; cases hplan'; exact hs hs')

def NoJobs (db : Db) (k : ℕ) : Prop := ∀ j job, db.jobs.get j = some job → job.payload.planId ≠ k

variable {k l j : ℕ}

lemma noJobs_of_voided {db : Db} (hlink : Linked db) (hprom : JobsPromoted db) (hk : Voided db k) :
    NoJobs db k := by
  rintro j job hjob rfl
  obtain ⟨l, leg, hleg, hplan, -, hsome⟩ := hlink.jobLeg j job hjob
  obtain ⟨plan, hget, hstatus⟩ := hprom l leg hleg hsome
  obtain ⟨plan', hget', hvoided⟩ := hk
  rw [hplan, hget'] at hget
  cases hget
  rcases hstatus with h | h <;> rw [hvoided] at h <;> cases h

/-! ### Sessions -/

structure WellRead (db : Db) (session : Session) : Prop where
  plan : session.planId ∈ db.plans.keys
  nodup : (session.legs.map Prod.fst).Nodup
  legs : ∀ e ∈ session.legs, ∃ leg, db.legs.get e.1 = some leg ∧ leg.planId = session.planId ∧
    leg.legIndex = e.2.legIndex

lemma mem_legsOf {db : Db} {leg : ProposedOrderLeg} :
    (l, leg) ∈ legsOf db k ↔ db.legs.get l = some leg ∧ leg.planId = k := by
  rw [legsOf, List.mem_insertionSort, Table.mem_filter, decide_eq_true_iff]

lemma wellRead_readLegs (env : Env) {db : Db} {session : Session}
    (h : session.planId ∈ db.plans.keys) : WellRead db (readLegs env db session) := by
  refine ⟨h, ?_, ?_⟩
  · have hperm := (List.perm_insertionSort (fun (e e' : ℕ × ProposedOrderLeg) =>
      e.2.legIndex ≤ e'.2.legIndex) (db.legs.filter fun _ leg => leg.planId = session.planId))
    exact (hperm.map Prod.fst).nodup_iff.mpr (db.legs.nodup_keys_filter _)
  · rintro ⟨l, leg⟩ he
    obtain ⟨hget, hplan⟩ := mem_legsOf.mp he
    exact ⟨leg, hget, hplan, rfl⟩

lemma wellRead_nil {db : Db} {session : Session} (h : session.planId ∈ db.plans.keys)
    (hlegs : session.legs = []) : WellRead db session := by
  refine ⟨h, ?_, ?_⟩
  · rw [hlegs]; exact List.nodup_nil
  · rw [hlegs]; exact fun e he => absurd he List.not_mem_nil

/-! ### The writers that promote nothing -/

inductive Moves : PlanStatus → PlanStatus → Prop
  | stay (status : PlanStatus) : Moves status status
  | void : Moves .planned .voided
  | close : Moves .promoted .closed

lemma Moves.of_voided {status : PlanStatus} (h : Moves .voided status) : status = .voided := by
  cases h
  rfl

lemma Moves.of_promoted {status status' : PlanStatus} (h : Moves status status')
    (hstatus : status = .promoted ∨ status = .closed) :
    status' = .promoted ∨ status' = .closed := by
  cases h with
  | stay => exact hstatus
  | void => rcases hstatus with h | h <;> cases h
  | close => exact .inr rfl

structure Keeps (db db' : Db) : Prop where
  plan : ∀ k row, db.plans.get k = some row →
    ∃ row', db'.plans.get k = some row' ∧ Moves row.status row'.status
  leg : ∀ l row, db.legs.get l = some row → db'.legs.get l = some row
  newLeg : ∀ l row', db'.legs.get l = some row' → db.legs.get l = some row' ∨
    row'.executionJobId = none ∧ row'.planId ∉ db.plans.keys ∧ row'.planId ∈ db'.plans.keys
  newLegKey : ∀ l l' leg leg', db'.legs.get l = some leg → db'.legs.get l' = some leg' →
    leg.planId = leg'.planId → leg.legIndex = leg'.legIndex → leg.planId ∉ db.plans.keys → l = l'
  job : ∀ j, (db'.jobs.get j).map (·.payload) = (db.jobs.get j).map (·.payload)

variable {db db' : Db}

lemma Keeps.of_legs_eq (hlegs : db'.legs = db.legs)
    (hlink : ∀ l leg, db.legs.get l = some leg → leg.planId ∈ db.plans.keys)
    (hplan : ∀ k row, db.plans.get k = some row →
      ∃ row', db'.plans.get k = some row' ∧ Moves row.status row'.status)
    (hjob : ∀ j, (db'.jobs.get j).map (·.payload) = (db.jobs.get j).map (·.payload)) :
    Keeps db db' where
  plan := hplan
  leg l row h := by rw [hlegs]; exact h
  newLeg l row h := .inl (by rw [← hlegs]; exact h)
  newLegKey l l' leg leg' h _ _ _ hno := by
    rw [hlegs] at h
    exact absurd (hlink l leg h) hno
  job := hjob

lemma Keeps.refl (hlink : Linked db) : Keeps db db :=
  .of_legs_eq rfl hlink.legPlan (fun _ row h => ⟨row, h, .stay _⟩) fun _ => rfl

lemma Keeps.mem_keys (h : Keeps db db') (hk : k ∈ db.plans.keys) : k ∈ db'.plans.keys := by
  obtain ⟨row, hrow⟩ := Table.get_of_mem_keys hk
  obtain ⟨row', hrow', -⟩ := h.plan k row hrow
  exact Table.mem_keys_of_get hrow'

lemma Keeps.linked (h : Keeps db db') (hlink : Linked db) : Linked db' := by
  constructor
  case legPlan =>
    intro l leg hleg
    rcases h.newLeg l leg hleg with hold | ⟨-, -, hmem⟩
    · exact h.mem_keys (hlink.legPlan l leg hold)
    · exact hmem
  case legKey =>
    intro l l' leg leg' hleg hleg' hplan hindex
    rcases h.newLeg l leg hleg with hold | ⟨-, hno, -⟩
    · rcases h.newLeg l' leg' hleg' with hold' | ⟨-, hno', -⟩
      · exact hlink.legKey l l' leg leg' hold hold' hplan hindex
      · exact absurd (hlink.legPlan l leg hold) (hplan ▸ hno')
    · exact h.newLegKey l l' leg leg' hleg hleg' hplan hindex hno
  case legJob =>
    intro l leg j hleg hj
    rcases h.newLeg l leg hleg with hold | ⟨hnone, -, -⟩
    · obtain ⟨job, hjob, hp, hi⟩ := hlink.legJob l leg j hold hj
      have hmap := h.job j
      rw [hjob, Option.map_some, Option.map_eq_some_iff] at hmap
      obtain ⟨job', hjob', hpayload⟩ := hmap
      exact ⟨job', hjob', by rw [hpayload]; exact hp, by rw [hpayload]; exact hi⟩
    · rw [hnone] at hj; cases hj
  case jobLeg =>
    intro j job hjob
    have hmap := h.job j
    rw [hjob, Option.map_some, eq_comm, Option.map_eq_some_iff] at hmap
    obtain ⟨job₀, hjob₀, hpayload⟩ := hmap
    obtain ⟨l, leg, hleg, hp, hi, hsome⟩ := hlink.jobLeg j job₀ hjob₀
    exact ⟨l, leg, h.leg l leg hleg, by rw [hp, hpayload], by rw [hi, hpayload], hsome⟩

lemma Keeps.jobsPromoted (h : Keeps db db') (hprom : JobsPromoted db) : JobsPromoted db' := by
  intro l leg hleg hsome
  rcases h.newLeg l leg hleg with hold | ⟨hnone, -, -⟩
  · obtain ⟨plan, hplan, hstatus⟩ := hprom l leg hold hsome
    obtain ⟨plan', hplan', hmoves⟩ := h.plan _ plan hplan
    exact ⟨plan', hplan', hmoves.of_promoted hstatus⟩
  · exact absurd hnone hsome

lemma Keeps.oneJobPerLeg (h : Keeps db db') (hone : OneJobPerLeg db) : OneJobPerLeg db' := by
  have hold : ∀ j job, db'.jobs.get j = some job →
      ∃ job₀, db.jobs.get j = some job₀ ∧ job₀.payload = job.payload := by
    intro j job hjob
    have hmap := h.job j
    rwa [hjob, Option.map_some, eq_comm, Option.map_eq_some_iff] at hmap
  intro j j' job job' hjob hjob' hplan hindex
  obtain ⟨job₀, h₀, hpayload⟩ := hold j job hjob
  obtain ⟨job₀', h₀', hpayload'⟩ := hold j' job' hjob'
  refine hone j j' job₀ job₀' h₀ h₀' ?_ ?_
  · rw [hpayload, hpayload', hplan]
  · rw [hpayload, hpayload', hindex]

lemma Keeps.voided (h : Keeps db db') (hk : Voided db k) : Voided db' k := by
  obtain ⟨plan, hplan, hstatus⟩ := hk
  obtain ⟨plan', hplan', hmoves⟩ := h.plan k plan hplan
  exact ⟨plan', hplan', (hstatus ▸ hmoves).of_voided⟩

lemma Keeps.wellRead (h : Keeps db db') {session : Session} (hread : WellRead db session) :
    WellRead db' session where
  plan := h.mem_keys hread.plan
  nodup := hread.nodup
  legs e he := by
    obtain ⟨leg, hleg, hrest⟩ := hread.legs e he
    exact ⟨leg, h.leg _ leg hleg, hrest⟩

lemma keeps_compareAndSet (hlink : Linked db) (k : ℕ) {expected : PlanStatus}
    {f : SignalExecutionPlan → SignalExecutionPlan}
    (hf : ∀ row, row.status = expected → Moves row.status (f row).status) :
    Keeps db (compareAndSet db k expected f) := by
  refine .of_legs_eq rfl hlink.legPlan ?_ fun _ => rfl
  intro j row hrow
  rw [compareAndSet, Table.get_modify]
  by_cases hj : j = k
  · subst hj
    rw [if_pos rfl, hrow, Option.map_some]
    by_cases hs : row.status = expected
    · rw [if_pos hs]; exact ⟨_, rfl, hf row hs⟩
    · rw [if_neg hs]; exact ⟨row, rfl, .stay _⟩
  · rw [if_neg hj]; exact ⟨row, hrow, .stay _⟩

lemma keeps_voidRejectedPlan (hlink : Linked db) (k : ℕ) (code : String) :
    Keeps db (voidRejectedPlan db k code) :=
  keeps_compareAndSet hlink k fun row h => by rw [h]; exact .void

lemma keeps_cancelPlan (hlink : Linked db) (k : ℕ) : Keeps db (cancelPlan db k) :=
  keeps_compareAndSet hlink k fun row h => by rw [h]; exact .void

lemma keeps_reclaimPlan (hlink : Linked db) (k : ℕ) : Keeps db (reclaimPlan db k) :=
  keeps_compareAndSet hlink k fun row h => by rw [h]; exact .void

lemma keeps_closePlan (hlink : Linked db) (k : ℕ) : Keeps db (closePlan db k) :=
  keeps_compareAndSet hlink k fun row h => by rw [h]; exact .close

lemma keeps_jobs (hlink : Linked db) {jobs : Table ExecutionJob}
    (hjob : ∀ j, (jobs.get j).map (·.payload) = (db.jobs.get j).map (·.payload)) :
    Keeps db { db with jobs } :=
  .of_legs_eq rfl hlink.legPlan (fun _ row h => ⟨row, h, .stay _⟩) hjob

lemma payload_modify (jobs : Table ExecutionJob) (i : ℕ) {f : ExecutionJob → ExecutionJob}
    (hf : ∀ job, (f job).payload = job.payload) (j : ℕ) :
    ((jobs.modify i f).get j).map (·.payload) = (jobs.get j).map (·.payload) := by
  rw [Table.get_modify]
  by_cases hj : j = i
  · subst hj
    rw [if_pos rfl, Option.map_map]
    exact congrArg (fun g => (jobs.get j).map g) (funext hf)
  · rw [if_neg hj]

lemma keeps_cancelPendingOrderJobs (hlink : Linked db) (k : ℕ) (locked : ℕ → Bool) (now : Time) :
    Keeps db (cancelPendingOrderJobs db k locked now) := by
  refine keeps_jobs hlink fun j => ?_
  generalize ((legsOf db k).filterMap fun leg => leg.2.executionJobId) = ids
  generalize db.jobs = jobs
  induction ids generalizing jobs with
  | nil => rfl
  | cons i ids ih =>
    rw [List.foldl_cons, ih]
    refine payload_modify jobs i (fun job => ?_) j
    split_ifs <;> rfl

/-! ### New plans -/

lemma legs_createPlan (k : ℕ) (targets : List (String × ℚ)) (n : ℕ) (legs : Table ProposedOrderLeg) :
    (∀ l row, legs.get l = some row →
        ((targets.zipIdx n).foldl (createLeg k) legs).get l = some row) ∧
      ∀ l row, ((targets.zipIdx n).foldl (createLeg k) legs).get l = some row →
        legs.get l = some row ∨ row.planId = k ∧ row.executionJobId = none ∧ n ≤ row.legIndex := by
  induction targets generalizing n legs with
  | nil => exact ⟨fun _ _ h => h, fun _ _ h => .inl h⟩
  | cons target targets ih =>
    rw [List.zipIdx_cons, List.foldl_cons]
    obtain ⟨hkeep, hnew⟩ := ih (n + 1) (createLeg k legs (target, n))
    have hfresh := legs.fresh_not_mem
    constructor
    · intro l row h
      exact hkeep l row (Table.get_insert_of_get hfresh h)
    · intro l row h
      rcases hnew l row h with hold | ⟨hplan, hnone, hle⟩
      · rw [createLeg, Table.get_insert _ hfresh] at hold
        by_cases hl : l = legs.fresh
        · rw [if_pos hl] at hold
          cases hold
          exact .inr ⟨rfl, rfl, Nat.le_refl n⟩
        · rw [if_neg hl] at hold
          exact .inl hold
      · exact .inr ⟨hplan, hnone, by omega⟩

lemma legKey_createPlan (targets : List (String × ℚ)) (n : ℕ) {legs : Table ProposedOrderLeg}
    (hlegs : ∀ l row, legs.get l = some row → row.planId = k → row.legIndex < n)
    (hkey : ∀ l l' leg leg', legs.get l = some leg → legs.get l' = some leg' → leg.planId = k →
      leg'.planId = k → leg.legIndex = leg'.legIndex → l = l') :
    ∀ l l' leg leg', ((targets.zipIdx n).foldl (createLeg k) legs).get l = some leg →
      ((targets.zipIdx n).foldl (createLeg k) legs).get l' = some leg' → leg.planId = k →
      leg'.planId = k → leg.legIndex = leg'.legIndex → l = l' := by
  induction targets generalizing n legs with
  | nil => exact hkey
  | cons target targets ih =>
    rw [List.zipIdx_cons, List.foldl_cons]
    have hget := fun l => Table.get_insert (t := legs) (k := legs.fresh)
      { planId := k, legIndex := n, takeProfit := target.1, lotSize := target.2 : ProposedOrderLeg }
      legs.fresh_not_mem l
    refine ih (n + 1) ?_ ?_
    · intro l row h hplan
      rw [createLeg, hget] at h
      split_ifs at h with hl
      · cases h; exact Nat.lt_succ_self n
      · exact Nat.lt_succ_of_lt (hlegs l row h hplan)
    · intro l l' leg leg' h h' hplan hplan' hindex
      rw [createLeg, hget] at h h'
      split_ifs at h h' with hl hl' hl'
      · rw [hl, hl']
      · cases h
        have := hlegs l' leg' h' hplan'
        dsimp only at hindex
        omega
      · cases h'
        have := hlegs l leg h hplan
        dsimp only at hindex
        omega
      · exact hkey l l' leg leg' h h' hplan hplan' hindex

lemma keeps_createPlan (hlink : Linked db) (k : ℕ) (plan : SignalExecutionPlan)
    (planning : Planning) : Keeps db (createPlan db k plan planning) := by
  rw [createPlan]
  split_ifs with hk
  · exact .refl hlink
  obtain ⟨hkeep, hnew⟩ := legs_createPlan k planning.targets 1 db.legs
  have hnone : ∀ l row, db.legs.get l = some row → row.planId ≠ k := by
    rintro l row hrow rfl
    exact hk (hlink.legPlan l row hrow)
  constructor
  case plan => exact fun j row hrow => ⟨row, Table.get_insert_of_get hk hrow, .stay _⟩
  case leg => exact hkeep
  case newLeg =>
    intro l row hrow
    rcases hnew l row hrow with hold | ⟨hplan, hjob, -⟩
    · exact .inl hold
    · refine .inr ⟨hjob, by rw [hplan]; exact hk, ?_⟩
      rw [hplan]
      exact Table.mem_keys_of_get (by rw [Table.get_insert _ hk, if_pos rfl])
  case newLegKey =>
    intro l l' leg leg' h h' hplan hindex hno
    have hleg : leg.planId = k := by
      rcases hnew l leg h with hold | ⟨hplan, -, -⟩
      · exact absurd (hlink.legPlan l leg hold) hno
      · exact hplan
    refine legKey_createPlan planning.targets 1 ?_ ?_ l l' leg leg' h h' hleg (hplan ▸ hleg) hindex
    · exact fun l row hrow hrowk => absurd hrowk (hnone l row hrow)
    · exact fun l _ row _ hrow _ hrowk => absurd hrowk (hnone l row hrow)
  case job => exact fun _ => rfl

/-! ### The promotion -/

lemma plans_promoteLeg (env : Env) (session : Session) (db : Db) (e : ℕ × ProposedOrderLeg) :
    (promoteLeg env session db e).plans = db.plans := by
  unfold promoteLeg
  cases e.2.executionJobId <;> rfl

lemma legs_promoteLeg (env : Env) (session : Session) (e : ℕ × ProposedOrderLeg)
    {row : ProposedOrderLeg} (h : db.legs.get l = some row) :
    ∃ row', (promoteLeg env session db e).legs.get l = some row' ∧ row'.planId = row.planId ∧
      row'.legIndex = row.legIndex ∧
      (row' = row ∨ l = e.1 ∧ e.2.executionJobId = none ∧ row'.executionJobId ≠ none) := by
  unfold promoteLeg
  cases he : e.2.executionJobId with
  | some j => exact ⟨row, h, rfl, rfl, .inl rfl⟩
  | none =>
    dsimp only
    rw [Table.get_modify]
    by_cases hl : l = e.1
    · subst hl
      rw [if_pos rfl, h]
      exact ⟨_, rfl, rfl, rfl, .inr ⟨rfl, rfl, Option.some_ne_none _⟩⟩
    · rw [if_neg hl]
      exact ⟨row, h, rfl, rfl, .inl rfl⟩

lemma legs_of_promoteLeg (env : Env) (session : Session) (e : ℕ × ProposedOrderLeg)
    {row' : ProposedOrderLeg} (h : (promoteLeg env session db e).legs.get l = some row') :
    ∃ row, db.legs.get l = some row ∧ row'.planId = row.planId ∧ row'.legIndex = row.legIndex ∧
      (row' = row ∨ l = e.1 ∧ e.2.executionJobId = none ∧ row'.executionJobId ≠ none) := by
  cases hrow : db.legs.get l with
  | some row =>
    obtain ⟨row'', h', hrest⟩ := legs_promoteLeg env session e hrow
    rw [h] at h'
    cases h'
    exact ⟨row, rfl, hrest⟩
  | none =>
    unfold promoteLeg at h
    cases he : e.2.executionJobId with
    | some j => rw [he] at h; rw [show db.legs.get l = some row' from h] at hrow; cases hrow
    | none =>
      rw [he] at h
      dsimp only at h
      rw [Table.get_modify] at h
      split_ifs at h with hl
      · rw [← hl, hrow] at h; cases h
      · rw [h] at hrow; cases hrow

lemma jobs_promoteLeg (env : Env) (session : Session) (e : ℕ × ProposedOrderLeg)
    {job : ExecutionJob} (h : db.jobs.get j = some job) :
    (promoteLeg env session db e).jobs.get j = some job := by
  unfold promoteLeg
  cases e.2.executionJobId with
  | some _ => exact h
  | none => exact Table.get_insert_of_get db.jobs.fresh_not_mem h

lemma jobs_of_promoteLeg (env : Env) (session : Session) (e : ℕ × ProposedOrderLeg)
    {job : ExecutionJob} (h : (promoteLeg env session db e).jobs.get j = some job) :
    db.jobs.get j = some job ∨
      e.2.executionJobId = none ∧ j = db.jobs.fresh ∧ job = orderJob env session e.2 := by
  unfold promoteLeg at h
  cases he : e.2.executionJobId with
  | some _ => rw [he] at h; exact .inl h
  | none =>
    rw [he] at h
    dsimp only at h
    rw [Table.get_insert _ db.jobs.fresh_not_mem] at h
    split_ifs at h with hj
    · cases h; exact .inr ⟨rfl, hj, rfl⟩
    · exact .inl h

lemma linked_promoteLeg (env : Env) {session : Session} (hlink : Linked db)
    {e : ℕ × ProposedOrderLeg} {leg : ProposedOrderLeg} (hleg : db.legs.get e.1 = some leg)
    (hplan : leg.planId = session.planId) (hindex : leg.legIndex = e.2.legIndex) :
    Linked (promoteLeg env session db e) := by
  constructor
  case legPlan =>
    intro l row h
    obtain ⟨row₀, h₀, hp, -, -⟩ := legs_of_promoteLeg env session e h
    rw [plans_promoteLeg, hp]
    exact hlink.legPlan l row₀ h₀
  case legKey =>
    intro l l' row row' h h' hrow hrow'
    obtain ⟨row₀, h₀, hp, hi, -⟩ := legs_of_promoteLeg env session e h
    obtain ⟨row₀', h₀', hp', hi', -⟩ := legs_of_promoteLeg env session e h'
    exact hlink.legKey l l' row₀ row₀' h₀ h₀' (by rw [← hp, hrow, hp']) (by rw [← hi, hrow', hi'])
  case legJob =>
    intro l row j h hj
    cases he : e.2.executionJobId with
    | some i =>
      have hsame : promoteLeg env session db e = db := by simp only [promoteLeg, he]
      rw [hsame] at h ⊢
      exact hlink.legJob l row j h hj
    | none =>
      by_cases hl : l = e.1
      · subst hl
        simp only [promoteLeg, he, Table.get_modify_self, hleg, Option.map_some,
          Option.some.injEq] at h
        subst h
        cases hj
        refine ⟨orderJob env session e.2, ?_, hplan.symm, hindex.symm⟩
        simp only [promoteLeg, he]
        rw [Table.get_insert _ db.jobs.fresh_not_mem, if_pos rfl]
      · have hold : db.legs.get l = some row := by
          simpa only [promoteLeg, he, Table.get_modify_of_ne _ _ hl] using h
        obtain ⟨job, hjob, hrest⟩ := hlink.legJob l row j hold hj
        exact ⟨job, jobs_promoteLeg env session e hjob, hrest⟩
  case jobLeg =>
    intro j job h
    have hkeep : ∀ l row, db.legs.get l = some row → row.executionJobId ≠ none →
        ∃ row', (promoteLeg env session db e).legs.get l = some row' ∧ row'.planId = row.planId ∧
          row'.legIndex = row.legIndex ∧ row'.executionJobId ≠ none := by
      intro l row hrow hsome
      obtain ⟨row', hrow', hp, hi, hcase⟩ := legs_promoteLeg env session e hrow
      rcases hcase with rfl | ⟨-, -, hsome'⟩
      · exact ⟨_, hrow', hp, hi, hsome⟩
      · exact ⟨_, hrow', hp, hi, hsome'⟩
    rcases jobs_of_promoteLeg env session e h with hold | ⟨he, -, rfl⟩
    · obtain ⟨l, row, hrow, hp, hi, hsome⟩ := hlink.jobLeg j job hold
      obtain ⟨row', hrow', hp', hi', hsome'⟩ := hkeep l row hrow hsome
      exact ⟨l, row', hrow', by rw [hp', hp], by rw [hi', hi], hsome'⟩
    · refine ⟨e.1, { leg with executionJobId := some db.jobs.fresh, status := .promoted }, ?_,
        hplan, hindex, Option.some_ne_none _⟩
      simp only [promoteLeg, he, Table.get_modify_self, hleg, Option.map_some]

lemma oneJobPerLeg_promoteLeg (env : Env) {session : Session} (hlink : Linked db)
    (hone : OneJobPerLeg db) {e : ℕ × ProposedOrderLeg} {leg : ProposedOrderLeg}
    (hleg : db.legs.get e.1 = some leg) (hplan : leg.planId = session.planId)
    (hindex : leg.legIndex = e.2.legIndex)
    (hfree : e.2.executionJobId = none → leg.executionJobId = none) :
    OneJobPerLeg (promoteLeg env session db e) := by
  -- no job that exists is one of the leg
  have hno : ∀ j job, e.2.executionJobId = none → db.jobs.get j = some job →
      job.payload.planId = session.planId → job.payload.legIndex ≠ e.2.legIndex := by
    intro j job he hjob hp hi
    obtain ⟨l, row, hrow, hp', hi', hsome⟩ := hlink.jobLeg j job hjob
    have hl : l = e.1 := hlink.legKey l e.1 row leg hrow hleg (by rw [hp', hp, hplan])
      (by rw [hi', hi, hindex])
    rw [hl, hleg] at hrow
    cases hrow
    exact hsome (hfree he)
  intro j j' job job' h h' hp hi
  rcases jobs_of_promoteLeg env session e h with hold | ⟨he, hj, rfl⟩
  · rcases jobs_of_promoteLeg env session e h' with hold' | ⟨he', -, rfl⟩
    · exact hone j j' job job' hold hold' hp hi
    · exact absurd hi (hno j job he' hold hp)
  · rcases jobs_of_promoteLeg env session e h' with hold' | ⟨-, hj', -⟩
    · exact absurd hi.symm (hno j' job' he hold' hp.symm)
    · rw [hj, hj']

/-! ### The transaction of a promotion -/

def Pending (db : Db) (session : Session) (es : List (ℕ × ProposedOrderLeg)) : Prop :=
  ∀ e ∈ es, ∃ leg, db.legs.get e.1 = some leg ∧ leg.planId = session.planId ∧
    leg.legIndex = e.2.legIndex

/-- No leg that was seen without a job has received one since. -/
def StillFree (db : Db) (es : List (ℕ × ProposedOrderLeg)) : Prop :=
  ∀ e ∈ es, e.2.executionJobId = none → ∀ leg, db.legs.get e.1 = some leg →
    leg.executionJobId = none

variable {env : Env} {session : Session}

lemma Pending.promoteLeg {es : List (ℕ × ProposedOrderLeg)} (h : Pending db session es)
    (e : ℕ × ProposedOrderLeg) : Pending (promoteLeg env session db e) session es := by
  intro e' he'
  obtain ⟨leg, hleg, hp, hi⟩ := h e' he'
  obtain ⟨leg', hleg', hp', hi', -⟩ := legs_promoteLeg env session e hleg
  exact ⟨leg', hleg', by rw [hp', hp], by rw [hi', hi]⟩

lemma StillFree.promoteLeg {e : ℕ × ProposedOrderLeg} {es : List (ℕ × ProposedOrderLeg)}
    (h : StillFree db es) (hne : ∀ e' ∈ es, e'.1 ≠ e.1) :
    StillFree (promoteLeg env session db e) es := by
  intro e' he' hseen leg' hleg'
  obtain ⟨leg, hleg, -, -, hcase⟩ := legs_of_promoteLeg env session e hleg'
  rcases hcase with rfl | ⟨hl, -, -⟩
  · exact h e' he' hseen _ hleg
  · exact absurd hl (hne e' he')

lemma plans_foldl (env : Env) (session : Session) (es : List (ℕ × ProposedOrderLeg)) (db : Db) :
    (es.foldl (promoteLeg env session) db).plans = db.plans := by
  induction es generalizing db with
  | nil => rfl
  | cons e es ih => rw [List.foldl_cons, ih, plans_promoteLeg]

lemma jobs_foldl (es : List (ℕ × ProposedOrderLeg)) {job : ExecutionJob}
    (h : db.jobs.get j = some job) :
    (es.foldl (promoteLeg env session) db).jobs.get j = some job := by
  induction es generalizing db with
  | nil => exact h
  | cons e es ih => exact ih (jobs_promoteLeg env session e h)

lemma legs_foldl (env : Env) (session : Session) (es : List (ℕ × ProposedOrderLeg))
    {row : ProposedOrderLeg} (h : db.legs.get l = some row) :
    ∃ row', (es.foldl (promoteLeg env session) db).legs.get l = some row' ∧
      row'.planId = row.planId ∧ row'.legIndex = row.legIndex ∧
      (row.executionJobId ≠ none → row'.executionJobId ≠ none) := by
  induction es generalizing db row with
  | nil => exact ⟨row, h, rfl, rfl, id⟩
  | cons e es ih =>
    obtain ⟨row₁, h₁, hp₁, hi₁, hcase⟩ := legs_promoteLeg env session e h
    obtain ⟨row₂, h₂, hp₂, hi₂, hsome⟩ := ih h₁
    refine ⟨row₂, h₂, by rw [hp₂, hp₁], by rw [hi₂, hi₁], fun hrow => hsome ?_⟩
    rcases hcase with rfl | ⟨-, -, hsome₁⟩
    · exact hrow
    · exact hsome₁

lemma legs_of_foldl {es : List (ℕ × ProposedOrderLeg)} (hpend : Pending db session es)
    {row' : ProposedOrderLeg} (h : (es.foldl (promoteLeg env session) db).legs.get l = some row') :
    ∃ row, db.legs.get l = some row ∧ row'.planId = row.planId ∧
      (row' = row ∨ row'.planId = session.planId) := by
  induction es generalizing db with
  | nil => exact ⟨row', h, rfl, .inl rfl⟩
  | cons e es ih =>
    have hpend' : Pending (promoteLeg env session db e) session es :=
      (Pending.promoteLeg (fun e' he' => hpend e' (List.mem_cons_of_mem e he')) e)
    obtain ⟨row₁, h₁, hp₁, hcase₁⟩ := ih hpend' h
    obtain ⟨row, hrow, hp, -, hcase⟩ := legs_of_promoteLeg env session e h₁
    refine ⟨row, hrow, by rw [hp₁, hp], ?_⟩
    rcases hcase with rfl | ⟨rfl, -, -⟩
    · exact hcase₁
    · obtain ⟨leg, hleg, hplan, -⟩ := hpend e List.mem_cons_self
      rw [hrow] at hleg
      cases hleg
      exact .inr (by rw [hp₁, hp, hplan])

lemma linked_foldl (env : Env) {es : List (ℕ × ProposedOrderLeg)} (hlink : Linked db)
    (hpend : Pending db session es) : Linked (es.foldl (promoteLeg env session) db) := by
  induction es generalizing db with
  | nil => exact hlink
  | cons e es ih =>
    obtain ⟨leg, hleg, hplan, hindex⟩ := hpend e List.mem_cons_self
    exact ih (linked_promoteLeg env hlink hleg hplan hindex)
      (Pending.promoteLeg (fun e' he' => hpend e' (List.mem_cons_of_mem e he')) e)

lemma oneJobPerLeg_foldl {es : List (ℕ × ProposedOrderLeg)} (hlink : Linked db)
    (hone : OneJobPerLeg db) (hnodup : (es.map Prod.fst).Nodup) (hpend : Pending db session es)
    (hfree : StillFree db es) : OneJobPerLeg (es.foldl (promoteLeg env session) db) := by
  induction es generalizing db with
  | nil => exact hone
  | cons e es ih =>
    rw [List.map_cons, List.nodup_cons] at hnodup
    obtain ⟨leg, hleg, hplan, hindex⟩ := hpend e List.mem_cons_self
    have hne : ∀ e' ∈ es, e'.1 ≠ e.1 := by
      intro e' he' heq
      exact hnodup.1 (heq ▸ List.mem_map_of_mem he')
    refine ih (linked_promoteLeg env hlink hleg hplan hindex) ?_ hnodup.2 ?_ ?_
    · exact oneJobPerLeg_promoteLeg env hlink hone hleg hplan hindex fun he =>
        hfree e List.mem_cons_self he leg hleg
    · exact Pending.promoteLeg (fun e' he' => hpend e' (List.mem_cons_of_mem e he')) e
    · exact StillFree.promoteLeg (fun e' he' => hfree e' (List.mem_cons_of_mem e he')) hne

lemma not_oneJobPerLeg_foldl {es : List (ℕ × ProposedOrderLeg)} (hlink : Linked db)
    (hpend : Pending db session es) {e : ℕ × ProposedOrderLeg} (he : e ∈ es)
    (hseen : e.2.executionJobId = none) {leg : ProposedOrderLeg}
    (hleg : db.legs.get e.1 = some leg) (hjob : leg.executionJobId ≠ none) :
    ¬ OneJobPerLeg (es.foldl (promoteLeg env session) db) := by
  obtain ⟨pre, post, rfl⟩ := List.append_of_mem he
  rw [List.foldl_append, List.foldl_cons]
  -- the leg still has a job when its turn comes
  have hpend_pre : Pending db session pre := fun e' he' => hpend e' (List.mem_append_left _ he')
  have hlink₁ := linked_foldl env hlink hpend_pre
  obtain ⟨leg₁, hleg₁, hplan₁, hindex₁, hsome⟩ := legs_foldl env session pre hleg
  generalize pre.foldl (promoteLeg env session) db = db₁ at *
  obtain ⟨j, hj⟩ := Option.ne_none_iff_exists'.mp (hsome hjob)
  obtain ⟨job, hjob₁, hp, hi⟩ := hlink₁.legJob e.1 leg₁ j hleg₁ hj
  obtain ⟨leg', hleg', hplan, hindex⟩ := hpend e he
  rw [hleg] at hleg'
  cases hleg'
  -- and the second one does not replace it
  have hold : (promoteLeg env session db₁ e).jobs.get j = some job :=
    jobs_promoteLeg env session e hjob₁
  have hnew : (promoteLeg env session db₁ e).jobs.get db₁.jobs.fresh =
      some (orderJob env session e.2) := by
    simp only [promoteLeg, hseen]
    rw [Table.get_insert _ db₁.jobs.fresh_not_mem, if_pos rfl]
  intro hone
  have heq := hone _ _ _ _ (jobs_foldl post hold) (jobs_foldl post hnew)
    (by rw [hp, hplan₁, hplan]; rfl) (by rw [hi, hindex₁, hindex]; rfl)
  exact db₁.jobs.fresh_not_mem (heq ▸ Table.mem_keys_of_get hjob₁)

variable {db : Db}

lemma get_plans_promote (k : ℕ) :
    (promote env session db).plans.get k =
      if k = session.planId then (db.plans.get k).map fun row => { row with status := .promoted }
      else db.plans.get k := by
  rw [promote, saveStatus, plans_foldl, Table.get_modify]
  by_cases h : k = session.planId
  · rw [if_pos h, if_pos h, h]
  · rw [if_neg h, if_neg h]

lemma mem_keys_promote : k ∈ (promote env session db).plans.keys ↔ k ∈ db.plans.keys := by
  rw [promote, saveStatus, Table.keys_modify, plans_foldl]

lemma linked_promote (hlink : Linked db) (hread : WellRead db session) :
    Linked (promote env session db) := by
  have h := linked_foldl env hlink hread.legs
  refine ⟨fun l leg hleg => ?_, h.legKey, h.legJob, h.jobLeg⟩
  rw [mem_keys_promote, ← plans_foldl env session session.legs db]
  exact h.legPlan l leg hleg

lemma jobsPromoted_promote (hprom : JobsPromoted db) (hread : WellRead db session) :
    JobsPromoted (promote env session db) := by
  intro l leg hleg hsome
  obtain ⟨row, hrow, hp, hcase⟩ := legs_of_foldl hread.legs hleg
  rw [get_plans_promote]
  by_cases hk : leg.planId = session.planId
  · obtain ⟨plan, hplan⟩ := Table.get_of_mem_keys hread.plan
    rw [if_pos hk, hk, hplan]
    exact ⟨_, rfl, .inl rfl⟩
  · rw [if_neg hk]
    rcases hcase with rfl | hcase
    · exact hprom l _ hrow hsome
    · exact absurd hcase hk

lemma wellRead_promote {session' : Session} (hread : WellRead db session') :
    WellRead (promote env session db) session' where
  plan := mem_keys_promote.mpr hread.plan
  nodup := hread.nodup
  legs e he := by
    obtain ⟨leg, hleg, hp, hi⟩ := hread.legs e he
    obtain ⟨leg', hleg', hp', hi', -⟩ := legs_foldl env session session.legs hleg
    exact ⟨leg', hleg', by rw [hp', hp], by rw [hi', hi]⟩

lemma voided_promote (hk : Voided db k) (hne : k ≠ session.planId) :
    Voided (promote env session db) k := by
  rw [Voided, get_plans_promote, if_neg hne]
  exact hk

lemma not_voided_promote : ¬ Voided (promote env session db) session.planId := by
  rintro ⟨plan, hplan, hstatus⟩
  rw [get_plans_promote, if_pos rfl, Option.map_eq_some_iff] at hplan
  obtain ⟨row, -, rfl⟩ := hplan
  cases hstatus

end Promotion
end GuvFX
