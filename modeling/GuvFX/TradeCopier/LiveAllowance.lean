/-
# The allowance of a live authorization

Every authorization counts the live orders that were charged to it, and retires with the last one
of its allowance.  Every intent gets at most one job.  The limit of concurrent positions is that of
the authorization that is charged: it bounds the open live copies of the follower when an order is
created, so that afterwards the copies are within the limit of the authorization charged last, but
not always within that of an authorization granted since.
-/
import GuvFX.TradeCopier.LiveSystem

namespace GuvFX
namespace LiveExecution

open Consumer (RequestedOp ReplicationStatus)

variable {w : World} {s : State}

/-! ### Jobs and intents -/

/-- The live orders that are charged to an authorization. -/
def linkedJobs (db : Db) (id : ℕ) : List (ℕ × ExecutionJob) :=
  db.jobs.filter fun _ job =>
    job.payload.executionMode = .live ∧ job.payload.copierLiveAuthorizationId = some id

def jobsOf (db : Db) (r : ℕ) : List (ℕ × ExecutionJob) :=
  db.jobs.filter fun _ job => job.payload.copierReplicationId = r

/-- Jobs and intents point at each other, and charges at existing authorizations. -/
structure Linked (db : Db) : Prop where
  jobs : ∀ j job, db.jobs.get j = some job →
    ∃ rep, db.replications.get job.payload.copierReplicationId = some rep ∧
      rep.executionJobId = some j
  refs : ∀ r rep j, db.replications.get r = some rep → rep.executionJobId = some j →
    j ∈ db.jobs.keys
  charges : ∀ j job id, db.jobs.get j = some job →
    job.payload.copierLiveAuthorizationId = some id → id ∈ db.authorizations.keys

variable {db : Db}

lemma Linked.one_job (h : Linked db) (r : ℕ) : (jobsOf db r).length ≤ 1 := by
  cases hrep : db.replications.get r with
  | none =>
    refine Table.length_filter_le_one 0 fun j job hjob hr => ?_
    obtain ⟨rep, hget, -⟩ := h.jobs j job hjob
    rw [of_decide_eq_true hr, hrep] at hget
    cases hget
  | some rep =>
    refine Table.length_filter_le_one (rep.executionJobId.getD 0) fun j job hjob hr => ?_
    obtain ⟨rep', hget, hj⟩ := h.jobs j job hjob
    rw [of_decide_eq_true hr, hrep] at hget
    rw [Option.some.inj hget, hj]
    rfl

variable {k r j id f : ℕ}

lemma linked_recordReplication (h : Linked db) {rep : CopierReplication}
    (hrec : recordable db k rep = true) :
    Linked { db with replications := db.replications.insert k rep } := by
  have hk := not_mem_keys_of_recordable hrec
  have hnone : rep.executionJobId = none := by
    simp only [recordable, isIntent, Bool.decide_and, Bool.and_eq_true, decide_eq_true_eq] at hrec
    exact hrec.1.1
  constructor
  · intro j job hjob
    obtain ⟨rep', hget, hj⟩ := h.jobs j job hjob
    exact ⟨rep', Table.get_insert_of_get hk hget, hj⟩
  · intro r rep' j hget hj
    dsimp only at hget
    rw [Table.get_insert rep hk] at hget
    split_ifs at hget with hr
    · obtain rfl := Option.some.inj hget
      rw [hnone] at hj
      cases hj
    · exact h.refs r rep' j hget hj
  · exact h.charges

lemma linked_settle (h : Linked db) (r : ℕ) (verified : Bool) : Linked (db.settle r verified) := by
  constructor
  · intro j job hjob
    obtain ⟨rep, hget, hj⟩ := h.jobs j job hjob
    show ∃ rep, (db.replications.modify r _).get _ = some rep ∧ _
    rw [Table.get_modify]
    split_ifs with hr
    · rw [← hr, hget]
      exact ⟨_, rfl, hj⟩
    · exact ⟨rep, hget, hj⟩
  · intro k rep j hget hj
    have hget' : (db.replications.modify r _).get k = some rep := hget
    rw [Table.get_modify] at hget'
    split_ifs at hget' with hk
    · obtain ⟨rep', hrep', rfl⟩ := Option.map_eq_some_iff.mp hget'
      exact h.refs r rep' j hrep' hj
    · exact h.refs k rep j hget' hj
  · exact h.charges

variable {volume : Option ℚ}

lemma linked_assign (h : Linked db) {rep : CopierReplication} {job : ExecutionJob}
    {status : ReplicationStatus} (hrep : db.replications.get r = some rep)
    (hnone : rep.executionJobId = none) (hj : j ∉ db.jobs.keys)
    (hr : job.payload.copierReplicationId = r)
    (hid : ∀ id, job.payload.copierLiveAuthorizationId = some id → id ∈ db.authorizations.keys) :
    Linked (db.assign r j job status volume) := by
  have hget : ∀ k, (db.assign r j job status volume).replications.get k =
      if k = r then some { rep with executionJobId := some j, status, targetVolume := volume }
      else db.replications.get k := by
    intro k
    show (db.replications.modify r _).get k = _
    rw [Table.get_modify, hrep]
    rfl
  have hjobs : ∀ k, (db.assign r j job status volume).jobs.get k =
      if k = j then some job else db.jobs.get k := Table.get_insert job hj
  constructor
  · intro k job' hjob'
    rw [hjobs] at hjob'
    split_ifs at hjob' with hk
    · obtain rfl := Option.some.inj hjob'
      exact ⟨_, by rw [hget, if_pos hr], by rw [hk]⟩
    · obtain ⟨rep', hrep', hk'⟩ := h.jobs k job' hjob'
      refine ⟨rep', ?_, hk'⟩
      rw [hget, if_neg, hrep']
      -- the intent had no job
      intro hr'
      rw [hr', hrep] at hrep'
      rw [← Option.some.inj hrep', hnone] at hk'
      cases hk'
  · intro k rep' i hk hi
    rw [hget] at hk
    have hkeys : ∀ i, i ∈ db.jobs.keys → i ∈ (db.jobs.insert j job).keys := by
      intro i hmem
      rw [Table.keys, Table.insert_of_not_mem job hj, List.map_append]
      exact List.mem_append_left _ hmem
    split_ifs at hk with hkr
    · obtain rfl := Option.some.inj hk
      obtain rfl := Option.some.inj hi
      show j ∈ (db.jobs.insert j job).keys
      rw [Table.keys, Table.insert_of_not_mem job hj]
      simp
    · exact hkeys i (h.refs k rep' i hk hi)
  · intro k job' id hjob' hid'
    rw [hjobs] at hjob'
    split_ifs at hjob' with hk
    · obtain rfl := Option.some.inj hjob'
      exact hid id hid'
    · exact h.charges k job' id hjob' hid'

lemma linked_apply (h : Linked db) {t : Txn} (hfacts : t.Facts db) (hj : j ∉ db.jobs.keys) :
    Linked (db.apply j t) := by
  have hassign : Linked (db.assign t.replicationId j t.job .executionRequested (some t.volume)) := by
    refine linked_assign h hfacts.replication hfacts.noJob hj hfacts.jobReplication fun id hid => ?_
    rw [hfacts.jobAuthorization] at hid
    rw [← Option.some.inj hid]
    exact Table.mem_keys_of_get hfacts.authorization
  refine ⟨hassign.jobs, hassign.refs, fun k job id hjob hid => ?_⟩
  show id ∈ (db.authorizations.modify _ _).keys
  rw [Table.keys_modify]
  exact hassign.charges k job id hjob hid

lemma linked_step (h : Linked s.db) (hfacts : ∀ p, (s.pc p).Facts s.db) (a : Action) :
    Linked (step w s a).db := by
  have heff := step_effect w s a
  revert heff
  generalize step w s a = s'
  intro heff
  cases heff with
  | recordReplication k rep hrec => exact linked_recordReplication h hrec
  | settle r verified rep hrep hfree hstatus => exact linked_settle h r verified
  | produceOther r j job status rep hrep hfree hnone hj hmode hr hid =>
    exact linked_assign h hrep hnone hj hr fun id hid' => by rw [hid] at hid'; cases hid'
  | grant id request authz hgrant hid =>
    refine ⟨h.jobs, h.refs, fun j job k hjob hk => ?_⟩
    show k ∈ (s.db.authorizations.insert id authz).keys
    rw [Table.keys, Table.insert_of_not_mem authz hid, List.map_append]
    exact List.mem_append_left _ (h.charges j job k hjob hk)
  | revoke id retire hfree =>
    refine ⟨h.jobs, h.refs, fun j job k hjob hk => ?_⟩
    show k ∈ (s.db.authorizations.modify _ _).keys
    rw [Table.keys_modify]
    exact h.charges j job k hjob hk
  | commit p j t hpc hj =>
    have hp := hfacts p
    rw [hpc] at hp
    exact linked_apply h hp hj
  | _ => exact ⟨h.jobs, h.refs, h.charges⟩

/-! ### The counters -/

/-- The counter of every authorization is the number of the live orders charged to it, within its
allowance, and the last one retires it. -/
def Counted (db : Db) : Prop :=
  ∀ id authz, db.authorizations.get id = some authz →
    authz.ordersConsumed = (linkedJobs db id).length ∧ authz.ordersConsumed ≤ authz.maxOrders ∧
      (authz.status = .consumed ↔ authz.maxOrders ≤ authz.ordersConsumed)

lemma Linked.linkedJobs_eq_nil (h : Linked db) (hid : id ∉ db.authorizations.keys) :
    linkedJobs db id = [] := by
  refine List.eq_nil_iff_forall_not_mem.mpr fun ⟨j, job⟩ hmem => ?_
  obtain ⟨hget, hp⟩ := Table.mem_filter.mp hmem
  exact hid (h.charges j job id hget (of_decide_eq_true hp).2)

lemma linkedJobs_insert {db' : Db} {job : ExecutionJob} (hj : j ∉ db.jobs.keys)
    (hjobs : db'.jobs = db.jobs.insert j job) (id : ℕ) :
    linkedJobs db' id = linkedJobs db id ++
      if job.payload.executionMode = .live ∧ job.payload.copierLiveAuthorizationId = some id
      then [(j, job)] else [] := by
  rw [linkedJobs, hjobs, Table.filter_insert job hj]
  simp only [decide_eq_true_eq]
  rfl

lemma counted_apply (h : Counted db) {t : Txn} (hfacts : t.Facts db) (hj : j ∉ db.jobs.keys) :
    Counted (db.apply j t) := by
  intro id authz hauthz
  rw [get_authorizations_apply hfacts] at hauthz
  have hjobs := linkedJobs_insert hj (show (db.apply j t).jobs = db.jobs.insert j t.job from rfl) id
  rw [hjobs, hfacts.mode, hfacts.jobAuthorization]
  by_cases hid : id = t.authorizationId
  · subst hid
    rw [if_pos rfl] at hauthz
    obtain rfl := Option.some.inj hauthz
    obtain ⟨hcount, -, -⟩ := h _ _ hfacts.authorization
    have hallowance := hfacts.allowance
    refine ⟨?_, ?_, ?_⟩
    · simp [CopierLiveAuthorization.consume, hcount]
    · show t.authorization.ordersConsumed + 1 ≤ t.authorization.maxOrders
      omega
    · show (if _ then _ else _) = _ ↔ t.authorization.maxOrders ≤ t.authorization.ordersConsumed + 1
      split_ifs with hlast
      · simp [hlast]
      · simp [hlast, hfacts.active]
  · rw [if_neg hid] at hauthz
    have hne : ¬ (ExecutionMode.live = .live ∧ some t.authorizationId = some id) := by
      rintro ⟨-, hsome⟩
      exact hid (Option.some.inj hsome).symm
    rw [if_neg hne, List.append_nil]
    exact h id authz hauthz

/-- **The counters stay right.** -/
lemma counted_step (h : Counted s.db) (hlinked : Linked s.db)
    (hfacts : ∀ p, (s.pc p).Facts s.db) (a : Action) : Counted (step w s a).db := by
  have heff := step_effect w s a
  revert heff
  generalize step w s a = s'
  intro heff
  cases heff with
  | produceOther r j job status rep hrep hfree hnone hj hmode hr hid =>
    intro id authz hauthz
    rw [linkedJobs_insert hj rfl, if_neg fun hlive => hmode hlive.1, List.append_nil]
    exact h id authz hauthz
  | grant id request new hgrant hid =>
    intro k authz hauthz
    have hget : (s.db.authorizations.insert id new).get k = some authz := hauthz
    rw [Table.get_insert new hid] at hget
    split_ifs at hget with hk
    · obtain rfl := Option.some.inj hget
      obtain ⟨-, hstatus, hzero, hpos, -⟩ := of_grant hgrant
      have hnil : linkedJobs s.db k = [] := hlinked.linkedJobs_eq_nil (by rwa [hk])
      refine ⟨?_, ?_, ?_⟩
      · show new.ordersConsumed = (linkedJobs s.db k).length
        rw [hzero, hnil]
        rfl
      · omega
      · rw [hstatus, hzero]
        constructor
        · intro hconsumed
          cases hconsumed
        · intro hle
          omega
    · exact h k authz hget
  | revoke id retire hfree =>
    intro k authz hauthz
    have hget : (s.db.authorizations.modify id _).get k = some authz := hauthz
    rw [Table.get_modify] at hget
    split_ifs at hget with hk
    · obtain ⟨old, hold, rfl⟩ := Option.map_eq_some_iff.mp hget
      obtain ⟨hcount, hle, hstatus⟩ := h id old hold
      subst hk
      refine ⟨hcount, hle, ?_⟩
      show (if retire ∧ old.status = .active then _ else old.status) = _ ↔ _
      split_ifs with hretire
      · -- an active row is not exhausted
        show _ ↔ old.maxOrders ≤ old.ordersConsumed
        rw [hretire.2] at hstatus
        simpa using hstatus
      · exact hstatus
    · exact h k authz hget
  | commit p j t hpc hj =>
    have hp := hfacts p
    rw [hpc] at hp
    exact counted_apply h hp hj
  | _ => exact h

/-! ### The history of the charges -/

/-- The live orders of the job table are those that were created, each under an authorization whose
terms are still the ones it was created under. -/
structure History (s : State) : Prop where
  jobs : (s.db.jobs.filter fun _ job => job.payload.executionMode = .live) =
    s.created.map fun c => (c.1, c.2.job)
  terms : ∀ c ∈ s.created, ∃ authz, s.db.authorizations.get c.2.authorizationId = some authz ∧
    SameTerms c.2.authorization authz

lemma sameTerms_trans {a b c : CopierLiveAuthorization} (h : SameTerms a b) (h' : SameTerms b c) :
    SameTerms a c := by
  have h₂ : b = _ := h
  have h₃ : c = _ := h'
  rw [SameTerms, h₃, h₂]

lemma history_step (h : History s) (hfacts : ∀ p, (s.pc p).Facts s.db) (a : Action) :
    History (step w s a) := by
  have hterms : ∀ c ∈ s.created, ∃ authz,
      (step w s a).db.authorizations.get c.2.authorizationId = some authz ∧
        SameTerms c.2.authorization authz := by
    intro c hc
    obtain ⟨authz, hget, hsame⟩ := h.terms c hc
    obtain ⟨authz', hget', hlater⟩ := later_step hfacts a hget
    exact ⟨authz', hget', sameTerms_trans hsame hlater.terms⟩
  have heff := step_effect w s a
  revert heff hterms
  generalize step w s a = s'
  intro hterms heff
  cases heff with
  | produceOther r j job status rep hrep hfree hnone hj hmode hr hid =>
    refine ⟨?_, hterms⟩
    show (s.db.jobs.insert j job).filter _ = _
    rw [Table.filter_insert job hj, h.jobs]
    simp [hmode]
  | commit p j t hpc hj =>
    have hp := hfacts p
    rw [hpc] at hp
    constructor
    · show (s.db.jobs.insert j t.job).filter _ = (s.created ++ [(j, t)]).map _
      rw [Table.filter_insert t.job hj, h.jobs]
      simp [hp.mode]
    · intro c hc
      rcases List.mem_append.mp hc with hc | hc
      · exact hterms c hc
      · obtain rfl := List.mem_singleton.mp hc
        refine ⟨t.authorization.consume, ?_, rfl⟩
        show (s.db.apply j t).authorizations.get t.authorizationId = _
        rw [get_authorizations_apply hp, if_pos rfl]
  | _ => exact ⟨h.jobs, hterms⟩

/-- The creation of the latest live order of a follower. -/
def lastCreated (s : State) (f : ℕ) : Option Txn :=
  ((s.created.map Prod.snd).filter fun t => t.followerId = f).getLast?

/-- The limit of concurrent positions of the authorization that was charged with the latest live
order of a follower; no position is open before the first one. -/
def concurrencyCap (s : State) (f : ℕ) : ℕ :=
  (lastCreated s f).elim 0 fun t => t.authorization.maxConcurrentPositions

/-! ### Open positions -/

lemma openLiveCopierCount_le {db' : Db}
    (h : ∀ k rep', db'.replications.get k = some rep' → isOpenLive db' f rep' = true →
      ∃ rep, db.replications.get k = some rep ∧ isOpenLive db f rep = true) :
    openLiveCopierCount db' f ≤ openLiveCopierCount db f := Table.length_filter_le h

lemma not_isOpenLive_of_none {rep : CopierReplication} (h : rep.executionJobId = none) :
    isOpenLive db f rep = false := by
  simp [isOpenLive, h]

lemma openLiveCopierCount_recordReplication {rep : CopierReplication}
    (hrec : recordable db k rep = true) :
    openLiveCopierCount { db with replications := db.replications.insert k rep } f ≤
      openLiveCopierCount db f := by
  refine openLiveCopierCount_le fun k' rep' hget hopen => ?_
  have hget' : (db.replications.insert k rep).get k' = some rep' := hget
  rw [Table.get_insert rep (not_mem_keys_of_recordable hrec)] at hget'
  split_ifs at hget' with hk
  · -- a new intent has no job
    obtain rfl := Option.some.inj hget'
    simp only [recordable, isIntent, Bool.decide_and, Bool.and_eq_true, decide_eq_true_eq] at hrec
    rw [not_isOpenLive_of_none hrec.1.1] at hopen
    cases hopen
  · exact ⟨rep', hget', hopen⟩

lemma openLiveCopierCount_settle {verified : Bool} {rep : CopierReplication}
    (hrep : db.replications.get r = some rep) (hstatus : rep.status = .executionRequested) :
    openLiveCopierCount (db.settle r verified) f ≤ openLiveCopierCount db f := by
  refine openLiveCopierCount_le fun k rep' hget hopen => ?_
  have hget' : (db.replications.modify r _).get k = some rep' := hget
  rw [Table.get_modify] at hget'
  split_ifs at hget' with hk
  · rw [hrep] at hget'
    obtain rfl := Option.some.inj hget'
    refine ⟨rep, by rw [hk, hrep], ?_⟩
    -- it was counted as requested
    simp only [isOpenLive, Bool.decide_and, Bool.and_eq_true, decide_eq_true_eq] at hopen ⊢
    exact ⟨hopen.1, hopen.2.1, by simp [hstatus], hopen.2.2.2⟩
  · exact ⟨rep', hget', hopen⟩

lemma isOpenLive_assign_of_ne (h : Linked db) {job : ExecutionJob} {status : ReplicationStatus}
    {rep : CopierReplication} (hj : j ∉ db.jobs.keys) (hk : k ≠ r)
    (hget : (db.assign r j job status volume).replications.get k = some rep) :
    db.replications.get k = some rep ∧
      isOpenLive (db.assign r j job status volume) f rep = isOpenLive db f rep := by
  have hget' : (db.replications.modify r _).get k = some rep := hget
  rw [Table.get_modify_of_ne _ _ hk] at hget'
  refine ⟨hget', ?_⟩
  cases hjob : rep.executionJobId with
  | none => rw [not_isOpenLive_of_none hjob, not_isOpenLive_of_none hjob]
  | some i =>
    have hi : i ≠ j := by
      rintro rfl
      exact hj (h.refs k rep i hget' hjob)
    have hjobs : (db.assign r j job status volume).jobs.get i = db.jobs.get i := by
      show (db.jobs.insert j job).get i = _
      rw [Table.get_insert job hj, if_neg hi]
    simp [isOpenLive, hjob, hjobs]

lemma openLiveCopierCount_assign_other (h : Linked db) {job : ExecutionJob}
    {status : ReplicationStatus} {rep : CopierReplication}
    (hrep : db.replications.get r = some rep) (hj : j ∉ db.jobs.keys)
    (hmode : job.payload.executionMode ≠ .live) :
    openLiveCopierCount (db.assign r j job status volume) f ≤ openLiveCopierCount db f := by
  refine openLiveCopierCount_le fun k rep' hget hopen => ?_
  by_cases hk : k = r
  · subst hk
    have hget' : (db.replications.modify k _).get k = some rep' := hget
    rw [Table.get_modify_self, hrep] at hget'
    obtain rfl := Option.some.inj hget'
    have hjobs : (db.assign k j job status volume).jobs.get j = some job := by
      show (db.jobs.insert j job).get j = _
      rw [Table.get_insert job hj, if_pos rfl]
    simp [isOpenLive, hjobs, hmode] at hopen
  · obtain ⟨hget', heq⟩ := isOpenLive_assign_of_ne (f := f) h hj hk hget
    exact ⟨rep', hget', by rw [← heq, hopen]⟩

lemma openLiveCopierCount_assign_le (h : Linked db) (f : ℕ) {job : ExecutionJob}
    {status : ReplicationStatus} (hj : j ∉ db.jobs.keys) :
    openLiveCopierCount (db.assign r j job status volume) f ≤ openLiveCopierCount db f + 1 := by
  refine Table.length_filter_le_succ r fun k rep' hget hopen => ?_
  by_cases hk : k = r
  · exact .inl hk
  · obtain ⟨hget', heq⟩ := isOpenLive_assign_of_ne (f := f) h hj hk hget
    exact .inr ⟨rep', hget', by rw [← heq, hopen]⟩

lemma openLiveCopierCount_assign_of_ne (h : Linked db) {job : ExecutionJob}
    {status : ReplicationStatus} {rep : CopierReplication}
    (hrep : db.replications.get r = some rep) (hj : j ∉ db.jobs.keys) (hf : rep.followerId ≠ f) :
    openLiveCopierCount (db.assign r j job status volume) f ≤ openLiveCopierCount db f := by
  refine openLiveCopierCount_le fun k rep' hget hopen => ?_
  by_cases hk : k = r
  · subst hk
    have hget' : (db.replications.modify k _).get k = some rep' := hget
    rw [Table.get_modify_self, hrep] at hget'
    obtain rfl := Option.some.inj hget'
    simp [isOpenLive, hf] at hopen
  · obtain ⟨hget', heq⟩ := isOpenLive_assign_of_ne (f := f) h hj hk hget
    exact ⟨rep', hget', by rw [← heq, hopen]⟩

lemma openLiveCopierCount_step (hlinked : Linked s.db) (hfacts : ∀ p, (s.pc p).Facts s.db)
    (a : Action) (f : ℕ) :
    openLiveCopierCount (step w s a).db f ≤ openLiveCopierCount s.db f ∨
      ∃ p j t, s.pc p = .commit t ∧ step w s a = s.commit p j t ∧ t.followerId = f ∧
        openLiveCopierCount (step w s a).db f ≤ openLiveCopierCount s.db f + 1 := by
  have heff := step_effect w s a
  revert heff
  generalize step w s a = s'
  intro heff
  cases heff with
  | recordReplication k rep hrec => exact .inl (openLiveCopierCount_recordReplication hrec)
  | settle r verified rep hrep hfree hstatus =>
    exact .inl (openLiveCopierCount_settle hrep hstatus)
  | produceOther r j job status rep hrep hfree hnone hj hmode hr hid =>
    exact .inl (openLiveCopierCount_assign_other hlinked hrep hj hmode)
  | commit p j t hpc hj =>
    have hp := hfacts p
    rw [hpc] at hp
    by_cases hf : t.followerId = f
    · exact .inr ⟨p, j, t, hpc, rfl, hf, openLiveCopierCount_assign_le hlinked f hj⟩
    · exact .inl (openLiveCopierCount_assign_of_ne hlinked hp.replication hj
        (by rw [hp.followerId]; exact hf))
  | _ => exact .inl le_rfl

/-- The open live copies of every follower are within the limit of the authorization charged last,
and a creation that is about to commit has seen at least as many as there are. -/
structure Concurrent (s : State) : Prop where
  bounded : ∀ f, openLiveCopierCount s.db f ≤ concurrencyCap s f
  seen : ∀ p t, s.pc p = .commit t → openLiveCopierCount s.db t.followerId ≤ t.openCount

lemma lastCreated_commit (p j : ℕ) (t : Txn) (f : ℕ) :
    lastCreated (s.commit p j t) f = if t.followerId = f then some t else lastCreated s f := by
  show (((s.created ++ [(j, t)]).map Prod.snd).filter _).getLast? = _
  rw [List.map_append, List.filter_append]
  by_cases hf : t.followerId = f
  · simp [hf]
  · simp [hf, lastCreated]

lemma created_step (a : Action) :
    (step w s a).created = s.created ∨ ∃ p j t, s.pc p = .commit t ∧ step w s a = s.commit p j t := by
  have heff := step_effect w s a
  revert heff
  generalize step w s a = s'
  intro heff
  cases heff with
  | commit p j t hpc hj => exact .inr ⟨p, j, t, hpc, rfl⟩
  | _ => exact .inl rfl

lemma commit_of_step (a : Action) {q : ℕ} {t : Txn} (hq : (step w s a).pc q = .commit t) :
    (s.pc q = .commit t ∧ ∀ p j u, s.pc p = .commit u → step w s a = s.commit p j u → p ≠ q) ∨
      (t.openCount = openLiveCopierCount s.db t.followerId ∧ (step w s a).db = s.db) := by
  have hown : ∀ p j u, s.pc p = .commit u → step w s a = s.commit p j u → p ≠ q := by
    rintro p j u - hstep rfl
    rw [hstep] at hq
    have hidle : (s.commit p j u).pc p = .idle := goto_pc_self p .idle
    rw [hidle] at hq
    cases hq
  have heff := step_effect w s a
  revert heff hq hown
  generalize step w s a = s'
  intro hq hown heff
  have hmove : ∀ p pc, s'.pc = Function.update s.pc p pc → (∀ u, pc ≠ .commit u) →
      s.pc q = .commit t := by
    intro p pc hpcs hne
    by_cases hqp : q = p
    · rw [hpcs, hqp, Function.update_self] at hq
      exact absurd hq (hne t)
    · rwa [hpcs, Function.update_of_ne hqp] at hq
  cases heff with
  | finish a p reply =>
    exact .inl ⟨hmove p .idle rfl (by simp), hown⟩
  | preflight p r hpc =>
    exact .inl ⟨hmove p _ rfl (by simp), hown⟩
  | lockReplication p r hpc hfree =>
    exact .inl ⟨hmove p _ rfl (by simp), hown⟩
  | lockFollower p r rep hpc hrep hfree =>
    exact .inl ⟨hmove p _ rfl (by simp), hown⟩
  | readAuthorization p r f hpc =>
    exact .inl ⟨hmove p _ rfl (by simp), hown⟩
  | admits p r f authz rep a hpc hrep hadm =>
    exact .inl ⟨hmove p _ rfl (by simp), hown⟩
  | select p r f a id authz hpc hactive =>
    exact .inl ⟨hmove p _ rfl (by simp), hown⟩
  | lockAuthorization p r f a id authz hpc hfree hauthz hactive =>
    exact .inl ⟨hmove p _ rfl (by simp), hown⟩
  | create p r f a id rep follower event authz u hpc hrep hauthz hpartners hcreate =>
    obtain ⟨volume, job, rfl, -⟩ := of_createLiveOpenJob hcreate
    by_cases hqp : q = p
    · rw [hqp, goto_pc_self] at hq
      cases hq
      exact .inr ⟨rfl, rfl⟩
    · rw [goto_pc_of_ne _ hqp] at hq
      exact .inl ⟨hq, hown⟩
  | commit p j u hpc hj =>
    exact .inl ⟨hmove p .idle rfl (by simp), hown⟩
  | _ => exact .inl ⟨hq, hown⟩

lemma concurrent_step (h : Concurrent s) (hlocks : LocksHeld s) (hlinked : Linked s.db)
    (hfacts : ∀ p, (s.pc p).Facts s.db) (a : Action) : Concurrent (step w s a) := by
  constructor
  · intro f
    rcases openLiveCopierCount_step (w := w) hlinked hfacts a f with hle | ⟨p, j, t, hpc, hstep, rfl, hle⟩
    · refine hle.trans ?_
      rcases created_step (w := w) (s := s) a with hsame | ⟨p, j, t, hpc, hstep⟩
      · have hcap : concurrencyCap (step w s a) f = concurrencyCap s f := by
          simp only [concurrencyCap, lastCreated, hsame]
        rw [hcap]
        exact h.bounded f
      · have hp := hfacts p
        rw [hpc] at hp
        rw [concurrencyCap, hstep, lastCreated_commit]
        split_ifs with hf
        · subst hf
          exact (h.seen p t hpc).trans hp.concurrency.le
        · exact h.bounded f
    · have hp := hfacts p
      rw [hpc] at hp
      have hseen := h.seen p t hpc
      have hconc := hp.concurrency
      rw [concurrencyCap, hstep, lastCreated_commit, if_pos rfl, ← hstep]
      show _ ≤ t.authorization.maxConcurrentPositions
      omega
  · intro q t hq
    rcases commit_of_step a hq with ⟨hqt, hown⟩ | ⟨hcount, hdb⟩
    · rcases openLiveCopierCount_step (w := w) hlinked hfacts a t.followerId with
        hle | ⟨p, j, u, hpc, hstep, hf, -⟩
      · exact hle.trans (h.seen q t hqt)
      · -- two creations of one follower would both hold its lock
        refine absurd (Locks.Held.unique hlocks (r := .follower t.followerId) ?_ ?_)
          (hown p j u hpc hstep)
        · rw [hpc]
          simp [Pc.rows, hf]
        · rw [hqt]
          simp [Pc.rows]
    · rw [hdb, hcount]

/-! ### Runs -/

/-- What the system keeps. -/
structure Inv (s : State) : Prop where
  locks : LocksHeld s
  facts : ∀ p, (s.pc p).Facts s.db
  linked : Linked s.db
  counted : Counted s.db
  history : History s
  concurrent : Concurrent s

lemma inv_init (env : Env) : Inv (init env) where
  locks := locksHeld_init env
  facts _ := trivial
  linked :=
    { jobs := fun _ _ h => nomatch h
      refs := fun _ _ _ h => nomatch h
      charges := fun _ _ _ h => nomatch h }
  counted _ _ h := nomatch h
  history := ⟨rfl, fun _ h => nomatch h⟩
  concurrent := ⟨fun _ => Nat.zero_le _, fun _ _ h => nomatch h⟩

lemma inv_step (h : Inv s) (a : Action) : Inv (step w s a) where
  locks := locksHeld_step h.locks a
  facts := facts_step h.locks h.facts a
  linked := linked_step h.linked h.facts a
  counted := counted_step h.counted h.linked h.facts a
  history := history_step h.history h.facts a
  concurrent := concurrent_step h.concurrent h.locks h.linked h.facts a

lemma inv_run (w : World) (h : Inv s) (as : List Action) : Inv (Runs.run (step w) s as) :=
  Runs.run_invariant (P := Inv) (fun _ a hs => inv_step hs a) h as

lemma later_run (h : Inv s) {authz : CopierLiveAuthorization}
    (hauthz : s.db.authorizations.get id = some authz) (as : List Action) :
    ∃ authz', (Runs.run (step w) s as).db.authorizations.get id = some authz' ∧
      LaterAuthorization authz authz' := by
  induction as using List.reverseRecOn with
  | nil => exact ⟨authz, hauthz, refl_of LaterAuthorization authz⟩
  | append_singleton as a ih =>
    obtain ⟨mid, hmid, hlater⟩ := ih
    obtain ⟨authz', hget, hlater'⟩ := later_step (w := w) (inv_run w h as).facts a hmid
    rw [Runs.run_concat]
    exact ⟨authz', hget, trans_of LaterAuthorization hlater hlater'⟩

lemma of_activeAuthorizationFor {m : ℕ} {authz : CopierLiveAuthorization}
    (h : activeAuthorizationFor db m f = some (id, authz)) :
    db.authorizations.get id = some authz ∧ authz.masterAccountId = m ∧
      authz.followerAccountId = f ∧ authz.status = .active := by
  obtain ⟨hget, hp⟩ := Table.mem_filter.mp (Latest.mem_of_latest h)
  exact ⟨hget, of_decide_eq_true hp⟩

lemma window_of_not_active {authz : CopierLiveAuthorization} (h : authz.status ≠ .active)
    (now : Time) : ¬ ∀ c ∈ authorizationWindowOk authz now, c.1 = true := by
  intro hall
  simp only [authorizationWindowOk, List.forall_mem_cons, decide_eq_true_eq] at hall
  exact h hall.1.1

/-- What becomes of an exhausted authorization: it stays retired, no order is charged to it any
more, no look-up of the active authorization of a pair finds it, and its row passes neither the
admission nor the checks of the creation. -/
structure Exhausted (w : World) (s : State) (id : ℕ) (orders : List (ℕ × ExecutionJob)) : Prop where
  consumed : ∃ authz, s.db.authorizations.get id = some authz ∧ authz.status = .consumed ∧
    (∀ env rep f follower event,
      admitOpen w env s.db (some (id, authz)) rep f follower event ≠ .ok id) ∧
    ∀ env r rep f follower event a t,
      createLiveOpenJob w env s.db r rep f follower event a id authz ≠ .ok t
  orders : (linkedJobs s.db id).length = orders.length
  notFound : ∀ m f authz, activeAuthorizationFor s.db m f ≠ some (id, authz)

structure Allowances (w : World) (s : State) : Prop where
  counted : Counted s.db
  oneJob : ∀ r, (jobsOf s.db r).length ≤ 1
  concurrent : ∀ f, openLiveCopierCount s.db f ≤ concurrencyCap s f
  history : History s
  exhausted : ∀ id authz, s.db.authorizations.get id = some authz →
    authz.maxOrders ≤ authz.ordersConsumed → authz.status = .consumed ∧
      ∀ more, Exhausted w (Runs.run (step w) s more) id (linkedJobs s.db id)

lemma exhausted_run (h : Inv s) {authz : CopierLiveAuthorization}
    (hauthz : s.db.authorizations.get id = some authz) (hconsumed : authz.status = .consumed)
    (more : List Action) : Exhausted w (Runs.run (step w) s more) id (linkedJobs s.db id) := by
  obtain ⟨authz', hget, hlater⟩ := later_run (w := w) h hauthz more
  obtain ⟨hstatus, horders⟩ := hlater.consumed hconsumed
  have hnot : authz'.status ≠ .active := by simp [hstatus]
  constructor
  · refine ⟨authz', hget, hstatus, fun env rep f follower event hok => ?_,
      fun env r rep f follower event a t hok => ?_⟩
    · obtain ⟨-, row, hrow, hchecks⟩ := of_admitOpen hok
      obtain rfl : authz' = row := congrArg Prod.snd (Option.some.inj hrow)
      refine window_of_not_active hnot env.now fun c hc => hchecks c ?_
      simp only [authorizationChecks, List.mem_append]
      tauto
    · obtain ⟨-, -, -, -, -, -, -, hactive, -⟩ := of_createLiveOpenJob hok
      exact hnot hactive
  · obtain ⟨hcount, -⟩ := h.counted id authz hauthz
    obtain ⟨hcount', -⟩ := (inv_run w h more).counted id authz' hget
    rw [← hcount, ← hcount', horders]
  · intro m f row hfound
    obtain ⟨hrow, -, -, hactive⟩ := of_activeAuthorizationFor hfound
    rw [hget] at hrow
    obtain rfl := Option.some.inj hrow
    exact hnot hactive

/-- **The allowances hold in every reachable state.**  The counter of every authorization is the
number of the live orders charged to it, and within its allowance; the last order retires it for
good; an intent has at most one job; and the open live copies of a follower are within the limit of
the authorization that was charged with its latest live order. -/
theorem allowances (w : World) (env : Env) (as : List Action) :
    Allowances w (Runs.run (step w) (init env) as) := by
  have h := inv_run w (inv_init env) as
  refine ⟨h.counted, h.linked.one_job, h.concurrent.bounded, h.history, fun id authz hauthz hmax => ?_⟩
  have hconsumed := (h.counted id authz hauthz).2.2.mpr hmax
  exact ⟨hconsumed, exhausted_run h hauthz hconsumed⟩

/-- Two live orders, and then another authorization of the pair. -/
def regranted : List Action :=
  [.configureFollower 1 ⟨1, 2, true, { mode := .multiplier }⟩, .grant 1 (sampleGrant 2 2),
    .env (sampleEnv 20), .recordEvent 1 (sampleEvent 1), .recordEvent 2 (sampleEvent 2),
    .recordReplication 1 (sampleIntent 1), .recordReplication 2 (sampleIntent 2)]
  ++ admitSteps 7 1 ++ createSteps 7 1 ++ admitSteps 8 2 ++ createSteps 8 2
  ++ [.grant 2 (sampleGrant 1 1)]

/-- The authorization granted last allows one position, and two are open. -/
theorem regrant_exceeds_concurrency :
    let s := Runs.run (step sampleWorld) (init (sampleEnv 0)) regranted
    (activeFor s.db 1).map (fun e => e.2.maxConcurrentPositions) = some 1 ∧
      openLiveCopierCount s.db 1 = 2 := by
  decide +kernel

end LiveExecution
end GuvFX
