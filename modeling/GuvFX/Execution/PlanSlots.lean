/-
# The slots of completed plans

A promoted plan holds a slot until a monitor closes it.  The monitor must not do so while one of the
legs has a position, or may still get one; all it can see are the rows.  A failed job counts as a leg
that never opened a position, and a job that has succeeded as one whose trade has to be closed.

The second half is sound: comments identify legs, and a trade that is closed belongs to a position
that is.  The first half is as good as the reports of the workers.  A worker whose order has been
placed, and who has not heard of it, reports a failure; the monitor then frees the slot of a plan
that has an open position.  In the runs in which no failure is reported of such an order, slots are
freed only when nothing is left of their plans.
-/
import GuvFX.Execution.OrderRuns

namespace GuvFX
namespace Orders

open Runs Promotion
open Consumer (JobType JobStatus)

/-! ### Orders that are over -/

/-- An order from which no open position is left and none will come. -/
def OrderOver (s : State) : BrokerOrder → Prop
  | .unsent | .rejected => True
  | .sent => False
  | .filled p => ∃ position, s.positions.get p = some position ∧ position.closeTime.isSome

/-- A job from which no open position is left and none will come. -/
structure Dead (s : State) (t : Track) : Prop where
  isOver : OrderOver s t.order
  stopped : t.order = .unsent →
    t.work ≠ .claiming ∧ t.work ≠ .holding ∧ ∃ job, t.job = some job ∧ job.status ≠ .pending

/-- What a failed report needs to be true, with the other two things that a monitor relies on: a leg
has one job, and nobody else uses the comments of the legs. -/
def Honest (s : State) : Action → Prop
  | .beginReport j false => OrderOver s (s.orders j)
  | .openElsewhere trade => ∀ k i, trade.comment ≠ legComment k i
  | a => FreeCommits s a

variable {s : State} {a : Action} {j : ℕ} {t t' : Track}

lemma Honest.freeCommits (h : Honest s a) : FreeCommits s a := by
  cases a with
  | promotion b => exact h
  | _ => trivial

lemma OrderOver.step {order : BrokerOrder} (h : OrderOver s order) (a : Action) :
    OrderOver (step s a) order := by
  cases order with
  | unsent | rejected => trivial
  | sent => exact h
  | filled p =>
    obtain ⟨position, hposition, hclosed⟩ := h
    obtain ⟨closeTime, hposition', hkept⟩ := (position_step s a p).kept hposition
    exact ⟨_, hposition', hkept hclosed⟩

/-- An order that is over, of a job that nobody can send any more, stays over. -/
lemma Moves.dead (h : Moves s a j t t') (ht : Dead s t) : Dead (step s a) t' := by
  cases h with
  | stays => exact ⟨ht.isOver.step a, ht.stopped⟩
  | created p session e w o =>
    refine ⟨ht.isOver.step a, fun ho => ?_⟩
    obtain ⟨-, -, job, hjob, -⟩ := ht.stopped ho
    cases hjob
  | cancelled job w o =>
    refine ⟨ht.isOver.step a, fun ho => ?_⟩
    obtain ⟨hc, hh, -⟩ := ht.stopped ho
    exact ⟨hc, hh, _, rfl, fun hn => nomatch hn⟩
  | locked job o _ hpending =>
    refine ⟨ht.isOver.step a, fun ho => ?_⟩
    obtain ⟨-, -, job', hjob', hno⟩ := ht.stopped ho
    cases hjob'
    exact absurd hpending hno
  | unlocked | claimed | refused =>
    exact ⟨ht.isOver.step a, fun ho => absurd rfl (ht.stopped ho).1⟩
  | sent => exact absurd rfl (ht.stopped rfl).2.1
  | filled | rejected => exact ht.isOver.elim
  | reporting => exact ⟨ht.isOver.step a, fun ho => absurd rfl (ht.stopped ho).2.1⟩
  | reported job o ok e =>
    refine ⟨ht.isOver.step a, fun ho => ⟨fun hn => (nomatch hn), fun hn => (nomatch hn), _, rfl, ?_⟩⟩
    cases ok <;> exact fun hn => nomatch hn
  | reconciled job w o =>
    refine ⟨ht.isOver.step a, fun ho => ?_⟩
    obtain ⟨hc, hh, -⟩ := ht.stopped ho
    exact ⟨hc, hh, _, rfl, fun hn => nomatch hn⟩

/-! ### Failures that are true -/

/-- A failure, reported or saved, is that of an order that is over. -/
structure Track.Truthful (s : State) (t : Track) : Prop where
  failed : ∀ job, t.job = some job → job.status = .failed → Dead s t
  reporting : t.work = .reporting false → OrderOver s t.order

lemma Moves.truthful (h : Moves s a j t t') (ht : t.Truthful s) (horderly : t.Orderly)
    (hhonest : ∀ i, a = .beginReport i false → OrderOver s (s.orders i)) (hj : t.order = s.orders j) :
    t'.Truthful (step s a) := by
  have hdead := h.dead
  cases h with
  | stays => exact ⟨fun job hjob hf => hdead (ht.failed job hjob hf), fun hw => (ht.reporting hw).step a⟩
  | created p session e w o =>
    refine ⟨?_, fun hw => (ht.reporting hw).step a⟩
    rintro _ ⟨⟩ hf
    cases hf
  | cancelled job w o hw hpending =>
    obtain ⟨horder, hwork⟩ := horderly.pending job rfl hpending
    have hidle : w = .idle := hwork.resolve_right hw
    dsimp only at horder
    subst horder hidle
    refine ⟨fun _ _ _ => ⟨trivial, fun _ => ?_⟩, fun hw => nomatch hw⟩
    exact ⟨fun hn => (nomatch hn), fun hn => (nomatch hn), _, rfl, fun hn => nomatch hn⟩
  | locked job o _ hpending =>
    refine ⟨?_, fun hw => nomatch hw⟩
    rintro _ ⟨⟩ hf
    exact nomatch hpending.symm.trans hf
  | unlocked row o =>
    exact ⟨fun job hjob hf => hdead (ht.failed job hjob hf), fun hw => nomatch hw⟩
  | claimed job o =>
    refine ⟨?_, fun hw => nomatch hw⟩
    rintro _ ⟨⟩ hf
    cases hf
  | refused job o reason =>
    obtain ⟨job', hjob', hpending⟩ := horderly.claiming rfl
    have horder := (horderly.pending job' hjob' hpending).1
    dsimp only at horder
    subst horder
    refine ⟨fun _ _ _ => ⟨trivial, fun _ => ?_⟩, fun hw => nomatch hw⟩
    exact ⟨fun hn => (nomatch hn), fun hn => (nomatch hn), _, rfl, fun hn => nomatch hn⟩
  | sent job =>
    refine ⟨?_, fun hw => nomatch hw⟩
    exact fun job' hjob' hf => hdead (ht.failed job' hjob' hf)
  | filled job w ticket =>
    exact ⟨fun job' hjob' hf => hdead (ht.failed job' hjob' hf), fun hw => (ht.reporting hw).elim⟩
  | rejected row w =>
    exact ⟨fun job' hjob' hf => hdead (ht.failed job' hjob' hf), fun hw => (ht.reporting hw).elim⟩
  | reporting job o ok ha =>
    refine ⟨fun job' hjob' hf => hdead (ht.failed job' hjob' hf), fun hw => ?_⟩
    cases hw
    have hover := hhonest j ha
    rw [← hj] at hover
    exact hover.step a
  | reported job o ok e =>
    refine ⟨?_, fun hw => nomatch hw⟩
    rintro _ ⟨⟩ hf
    cases ok with
    | true => cases hf
    | false =>
      refine ⟨(ht.reporting rfl).step a, fun _ => ?_⟩
      exact ⟨fun hn => (nomatch hn), fun hn => (nomatch hn), _, rfl, fun hn => nomatch hn⟩
  | reconciled job w o hrunning =>
    refine ⟨?_, fun hw => (ht.reporting hw).step a⟩
    rintro _ ⟨⟩ hf
    cases hf

/-! ### Plans of which nothing is left -/

def LegDead (s : State) (leg : ProposedOrderLeg) : Prop :=
  ∃ j, leg.executionJobId = some j ∧ Dead s (s.track j)

structure PlanDead (s : State) (k : ℕ) : Prop where
  plan : k ∈ s.base.db.plans.keys
  legs : ∀ l leg, s.base.db.legs.get l = some leg → leg.planId = k → LegDead s leg

structure ReadAs (s : State) (leg : ProposedOrderLeg) (row : LegRow) : Prop where
  legIndex : row.1.legIndex = leg.legIndex
  job : ∀ job, row.2 = some job → ∃ j, leg.executionJobId = some j ∧
    (∃ job', s.base.db.jobs.get j = some job' ∧ job'.payload.planId = leg.planId ∧
      job'.payload.legIndex = leg.legIndex) ∧ (job.status = .failed → Dead s (s.track j))

/-- What a monitor has seen of a plan. -/
def ResolverSound (s : State) : Resolver → Prop
  | .idle => True
  | .found k _ => k ∈ s.base.db.plans.keys
  | .checking k _ rows => k ∈ s.base.db.plans.keys ∧
    ∀ l leg, s.base.db.legs.get l = some leg → leg.planId = k →
      LegDead s leg ∨ ∃ row ∈ rows, ReadAs s leg row
  | .settled k => PlanDead s k

/-- The invariant of the runs whose steps are honest. -/
structure Sound (s : State) : Prop where
  inv : Inv s
  oneJob : OneJobPerLeg s.base.db
  elsewhere : ∀ p position, s.positions.get p = some position → position.jobId = none →
    ∀ k i, position.comment ≠ legComment k i
  truthful : ∀ j, (s.track j).Truthful s
  resolver : ∀ r, ResolverSound s (s.resolvers r)

lemma sound_start (env : Env) (now : Time) : Sound (start env now) where
  inv := inv_start env now
  oneJob := by intro j j' job job' h; cases h
  elsewhere := by intro p position h; cases h
  truthful j := ⟨(by intro job h; cases h), by intro h; cases h⟩
  resolver r := trivial

lemma dead_step (a : Action) (h : Dead s (s.track j)) : Dead (step s a) ((step s a).track j) :=
  (step_moves s a j).dead h

lemma legDead_of_kept {leg leg' : ProposedOrderLeg} (h : LegDead s leg) (a : Action)
    (hkept : leg.executionJobId ≠ none → leg'.executionJobId = leg.executionJobId) :
    LegDead (step s a) leg' := by
  obtain ⟨j, hj, hdead⟩ := h
  exact ⟨j, (hkept (by rw [hj]; exact Option.some_ne_none j)).trans hj, dead_step a hdead⟩

variable {k accountId : ℕ}

lemma leg_before (h : Sound s) (ha : Honest s a) {l : ℕ} {leg' : ProposedOrderLeg}
    (hk : k ∈ s.base.db.plans.keys) (hleg' : (step s a).base.db.legs.get l = some leg')
    (hplan : leg'.planId = k) :
    ∃ leg, s.base.db.legs.get l = some leg ∧ leg.planId = k ∧ leg'.legIndex = leg.legIndex ∧
      (leg.executionJobId ≠ none → leg'.executionJobId = leg.executionJobId) := by
  obtain ⟨leg, hleg, hp⟩ := of_leg_kept h.inv.base ha.freeCommits hk hleg' hplan
  obtain ⟨executionJobId, status, hnew, hkept⟩ := leg_kept h.inv.base ha.freeCommits hleg
  rw [hleg'] at hnew
  cases hnew
  exact ⟨leg, hleg, hp, rfl, fun hsome => (hkept hsome).1⟩

lemma planDead_step (h : Sound s) (ha : Honest s a) (hk : PlanDead s k) :
    PlanDead (step s a) k := by
  refine ⟨mem_plans_step a hk.plan, fun l leg' hleg' hplan => ?_⟩
  obtain ⟨leg, hleg, hp, -, hkept⟩ := leg_before h ha hk.plan hleg' hplan
  exact legDead_of_kept (hk.legs l leg hleg hp) a hkept

lemma readAs_step {leg leg' : ProposedOrderLeg} {row : LegRow} (h : ReadAs s leg row) (a : Action)
    (hplan : leg'.planId = leg.planId) (hindex : leg'.legIndex = leg.legIndex)
    (hkept : leg.executionJobId ≠ none → leg'.executionJobId = leg.executionJobId) :
    ReadAs (step s a) leg' row := by
  refine ⟨h.legIndex.trans hindex.symm, fun job hjob => ?_⟩
  obtain ⟨j, hj, ⟨job', hjob', hp, hi⟩, hfailed⟩ := h.job job hjob
  obtain ⟨job'', hjob'', hpayload, -⟩ := job_step hjob' a
  refine ⟨j, (hkept (by rw [hj]; exact Option.some_ne_none j)).trans hj, ?_,
    fun hf => dead_step a (hfailed hf)⟩
  exact ⟨job'', hjob'', by rw [hpayload, hp, hplan], by rw [hpayload, hi, hindex]⟩

/-- What a monitor has seen stays true. -/
lemma resolverSound_step (h : Sound s) (ha : Honest s a) {resolver : Resolver}
    (hr : ResolverSound s resolver) : ResolverSound (step s a) resolver := by
  cases resolver with
  | idle => trivial
  | found k accountId => exact mem_plans_step a hr
  | settled k => exact planDead_step h ha hr
  | checking k accountId rows =>
    refine ⟨mem_plans_step a hr.1, fun l leg' hleg' hplan => ?_⟩
    obtain ⟨leg, hleg, hp, hindex, hkept⟩ := leg_before h ha hr.1 hleg' hplan
    rcases hr.2 l leg hleg hp with hdead | ⟨row, hrow, hread⟩
    · exact .inl (legDead_of_kept hdead a hkept)
    · exact .inr ⟨row, hrow, readAs_step hread a (hplan.trans hp.symm) hindex hkept⟩

/-! ### What a monitor concludes -/

lemma readAs_planLegs (h : Sound s) {l : ℕ} {leg : ProposedOrderLeg}
    (hleg : s.base.db.legs.get l = some leg) (hplan : leg.planId = k) :
    ∃ row ∈ planLegs s.base.db k, ReadAs s leg row := by
  refine ⟨(leg, leg.executionJobId.bind s.base.db.jobs.get), ?_, rfl, fun job hjob => ?_⟩
  · exact List.mem_map_of_mem (f := fun e : ℕ × ProposedOrderLeg =>
      (e.2, e.2.executionJobId.bind s.base.db.jobs.get)) (mem_legsOf.mpr ⟨hleg, hplan⟩)
  · obtain ⟨j, hj, hget⟩ := Option.bind_eq_some_iff.mp hjob
    obtain ⟨job', hjob', hp, hi⟩ := h.inv.base.linked.legJob l leg j hleg hj
    refine ⟨j, hj, ⟨job', hjob', hp, hi⟩, fun hf => ?_⟩
    exact (h.truthful j).failed job hget hf

lemma of_legTrade {trades : Table Trade} {comment : String} {trade : Trade}
    (h : legTrade trades accountId comment = some trade) :
    ∃ p, trades.get p = some trade ∧ trade.accountId = accountId ∧ trade.comment = comment := by
  unfold legTrade at h
  obtain ⟨⟨p, trade'⟩, hhead, rfl⟩ := Option.map_eq_some_iff.mp h
  have hmem := List.mem_of_mem_head? hhead
  rw [List.mem_insertionSort, Table.mem_filter] at hmem
  exact ⟨p, hmem.1, of_decide_eq_true hmem.2⟩

lemma filled_of_comment (h : Sound s) {p : ℕ} {position : Position}
    (hposition : s.positions.get p = some position) {job : ExecutionJob}
    (hjob : s.base.db.jobs.get j = some job)
    (hcomment : position.comment = legComment job.payload.planId job.payload.legIndex) :
    s.orders j = .filled p :=
  h.inv.filled_of_comment h.oneJob h.elsewhere hposition hjob hcomment

lemma legDead_of_settled (h : Sound s) {leg : ProposedOrderLeg} {row : LegRow}
    (hread : ReadAs s leg row) (hplan : leg.planId = k)
    (hsettled : legSettled s.trades accountId k row = true) : LegDead s leg := by
  unfold legSettled at hsettled
  cases hjob : row.2 with
  | none => rw [hjob] at hsettled; cases hsettled
  | some job =>
    rw [hjob] at hsettled
    obtain ⟨j, hj, ⟨job', hjob', hp, hi⟩, hfailed⟩ := hread.job job hjob
    cases hstatus : job.status with
    | pending | running => simp only [hstatus] at hsettled; cases hsettled
    | failed => exact ⟨j, hj, hfailed hstatus⟩
    | success =>
      simp only [hstatus] at hsettled
      obtain ⟨trade, htrade, hclosed⟩ := (Option.any_eq_true ..).mp hsettled
      obtain ⟨p, hget, -, hcomment⟩ := of_legTrade htrade
      obtain ⟨position, hposition, hshows⟩ := h.inv.trade p trade hget
      have hfilled : s.orders j = .filled p := by
        refine filled_of_comment h hposition hjob' ?_
        rw [← hshows.comment, hcomment, hread.legIndex, hp, hi, hplan]
      refine ⟨j, hj, ⟨?_, fun hu => ?_⟩⟩
      · show OrderOver s (s.orders j)
        rw [hfilled]
        exact ⟨position, hposition, hshows.closed hclosed⟩
      · exact nomatch hfilled.symm.trans hu

lemma checked (h : Sound s) {rows : List LegRow}
    (hr : ResolverSound s (.checking k accountId rows)) :
    ResolverSound s (checkLeg s.trades k accountId rows) := by
  obtain ⟨hk, hlegs⟩ := hr
  cases rows with
  | nil =>
    refine ⟨hk, fun l leg hleg hplan => ?_⟩
    rcases hlegs l leg hleg hplan with hdead | ⟨row, hrow, -⟩
    · exact hdead
    · exact absurd hrow List.not_mem_nil
  | cons row rest =>
    dsimp only [checkLeg]
    split_ifs with hsettled
    · refine ⟨hk, fun l leg hleg hplan => ?_⟩
      rcases hlegs l leg hleg hplan with hdead | ⟨row', hrow', hread⟩
      · exact .inl hdead
      · rcases List.mem_cons.mp hrow' with rfl | hrest
        · exact .inl (legDead_of_settled h hread hplan hsettled)
        · exact .inr ⟨row', hrest, hread⟩
    · trivial

lemma next_resolver (h : Sound s) (a : Action) (r : ℕ) :
    (step s a).resolvers r = s.resolvers r ∨ ResolverSound s ((step s a).resolvers r) := by
  have hupdate : ∀ q resolver, ResolverSound s resolver →
      (s.withResolver q resolver).resolvers r = s.resolvers r ∨
        ResolverSound s ((s.withResolver q resolver).resolvers r) := by
    intro q resolver hresolver
    by_cases hq : r = q
    · subst hq
      right
      rw [show (s.withResolver r resolver).resolvers r = resolver from Function.update_self ..]
      exact hresolver
    · left
      exact Function.update_of_ne hq ..
  cases a with
  | findPlan q k =>
    dsimp only [step]
    cases s.resolvers q with
    | idle =>
      dsimp only [findPlan]
      cases hplan : s.base.db.plans.get k with
      | none => exact .inl rfl
      | some plan =>
        dsimp only
        split_ifs
        · exact hupdate q _ (Table.mem_keys_of_get hplan)
        · exact .inl rfl
    | found | checking | settled => exact .inl rfl
  | readPlanLegs q =>
    dsimp only [step]
    cases hq : s.resolvers q with
    | found k accountId =>
      have hk : k ∈ s.base.db.plans.keys := by
        have hr := h.resolver q
        rwa [hq] at hr
      dsimp only [readPlanLegs]
      split_ifs
      · exact hupdate q _ trivial
      · exact hupdate q _ ⟨hk, fun l leg hleg hplan => .inr (readAs_planLegs h hleg hplan)⟩
    | idle | checking | settled => exact .inl rfl
  | checkLeg q =>
    dsimp only [step]
    cases hq : s.resolvers q with
    | checking k accountId rows =>
      have hr : ResolverSound s (.checking k accountId rows) := hq ▸ h.resolver q
      exact hupdate q _ (checked h hr)
    | idle | found | settled => exact .inl rfl
  | freeSlot q =>
    dsimp only [step]
    cases s.resolvers q with
    | settled k => exact hupdate q .idle trivial
    | idle | found | checking => exact .inl rfl
  | _ => exact .inl (by rw [(frame s _).resolvers (by simp [Action.actor])])

theorem sound_step (h : Sound s) (ha : Honest s a) : Sound (step s a) where
  inv := inv_step h.inv a
  oneJob := oneJob_step h.inv.base h.oneJob ha.freeCommits
  elsewhere := foreign_step h.elsewhere (by rintro trade rfl; exact ha)
  truthful j := by
    refine (step_moves s a j).truthful (h.truthful j) (h.inv.orderly j) ?_ rfl
    rintro i rfl
    exact ha
  resolver r := by
    rcases next_resolver h a r with heq | hsound
    · rw [heq]
      exact resolverSound_step h ha (h.resolver r)
    · exact resolverSound_step h ha hsound

/-! ### Slots are held -/

/-- The step takes the plan from promoted to closed. -/
def Closes (s : State) (a : Action) (k : ℕ) : Prop :=
  (s.base.db.plans.get k).any (·.status = .promoted) ∧
    ((step s a).base.db.plans.get k).any (·.status = .closed)

instance (s : State) (a : Action) (k : ℕ) : Decidable (Closes s a k) :=
  inferInstanceAs (Decidable (_ ∧ _))

def OpenPosition (s : State) (k : ℕ) : Prop :=
  ∃ p position j job, s.positions.get p = some position ∧ position.closeTime = none ∧
    position.jobId = some j ∧ s.base.db.jobs.get j = some job ∧ job.payload.planId = k

/-- When a plan is closed, none of its legs has an open position, or ever has one later. -/
def SlotsHeld (s : State) (as : List Action) : Prop :=
  ∀ pre a post k, as = pre ++ a :: post → Closes (run step s pre) a k →
    ∀ mid, mid <+: post → ¬ OpenPosition (run step s (pre ++ a :: mid)) k

lemma closes_cases (h : Closes s a k) : ∃ r, a = .freeSlot r ∧ s.resolvers r = .settled k := by
  obtain ⟨hold, hnew⟩ := h
  obtain ⟨plan, hplan, hpromoted⟩ := (Option.any_eq_true ..).mp hold
  obtain ⟨plan', hplan', hclosed⟩ := (Option.any_eq_true ..).mp hnew
  have hp := of_decide_eq_true hpromoted
  have hc := of_decide_eq_true hclosed
  have hbase := base_step s a
  generalize (step s a).base = base' at hbase hplan'
  -- the step of the promotions that has closed the plan
  have hcloses : ∀ b, (Promotion.step s.base b).db.plans.get k = some plan' → b = .closePlan k := by
    intro b hb
    have hmoves := plan_step s.base b k
    rw [hplan, hb] at hmoves
    cases hmoves with
    | stays => cases hp.symm.trans hc
    | voided | promoted => cases hc
    | closed _ hclose => exact hclose
  cases hbase with
  | stays =>
    rw [hplan] at hplan'
    cases hplan'
    cases hp.symm.trans hc
  | promotes b b' hb =>
    have hclose := hcloses b' hplan'
    subst hclose
    cases b <;> simp [seenHere] at hb
  | saves => cases hcloses _ hplan'
  | frees r k' hr =>
    cases hcloses _ hplan'
    exact ⟨r, rfl, hr⟩

lemma not_openPosition (h : Sound s) (hk : PlanDead s k) : ¬ OpenPosition s k := by
  rintro ⟨p, position, j, job, hposition, hopen, hid, hjob, rfl⟩
  obtain ⟨l, leg, hleg, hplan, hindex, -⟩ := h.inv.base.linked.jobLeg j job hjob
  obtain ⟨j', hj', hdead⟩ := hk.legs l leg hleg hplan
  obtain ⟨job', hjob', hp, hi⟩ := h.inv.base.linked.legJob l leg j' hleg hj'
  have heq : j' = j := h.oneJob j' j job' job hjob' hjob (hp.trans hplan) (hi.trans hindex)
  subst heq
  have hover : OrderOver s (s.orders j') := hdead.isOver
  rw [(h.inv.opened p position j' hposition hid).filled] at hover
  obtain ⟨position', hposition', hclosed⟩ := hover
  rw [hposition] at hposition'
  cases hposition'
  rw [hopen] at hclosed
  cases hclosed

/-- In the runs whose steps are honest, a slot is freed only when nothing of its plan is left. -/
theorem slotsHeld_of_honest (env : Env) (now : Time) (as : List Action)
    (has : StepsMeet step Honest (start env now) as) : SlotsHeld (start env now) as := by
  rintro pre a post k rfl hcloses mid ⟨rest, rfl⟩
  have hsplit := stepsMeet_append.mp has
  have hpre : Sound (run step (start env now) pre) :=
    run_invariant_of_meets (P := Sound) (fun _ _ h ha => sound_step h ha) (sound_start env now)
      hsplit.1
  obtain ⟨ha, hrest⟩ := hsplit.2
  obtain ⟨r, -, hr⟩ := closes_cases hcloses
  have hdead : PlanDead (run step (start env now) pre) k := by
    have hsound := hpre.resolver r
    rwa [hr] at hsound
  have hlast := run_invariant_of_meets (P := fun s => Sound s ∧ PlanDead s k)
    (fun _ _ h ha => ⟨sound_step h.1 ha, planDead_step h.1 ha h.2⟩)
    ⟨sound_step hpre ha, planDead_step hpre ha hdead⟩ (stepsMeet_append.mp hrest).1
  rw [run_append, run_cons]
  exact not_openPosition hlast.1 hlast.2

/-! ### A failure that is not true -/

/-- A plan with one leg is promoted, and the order of the leg is filled. -/
def filledRun : List Action :=
  [.promotion (.createPlan 1 samplePlan (.planned [("2310", 1 / 100)])),
    .promotion (.load 0 1 .demo true), .promotion (.validate 0), .promotion (.readLegs 0),
    .promotion (.commit 0 .done), .lockJob 1, .claimJob 1 none, .sendOrder 1, .fillOrder 1 "7001"]

/-- The worker has not heard of the fill and reports a failure. -/
def lostAckRun : List Action :=
  filledRun ++ [.beginReport 1 false, .saveReport 1 "timeout", .findPlan 0 1, .readPlanLegs 0,
    .checkLeg 0, .checkLeg 0, .freeSlot 0]

/-- The worker reports the fill, and the position is closed before the monitor comes. -/
def resolvedRun : List Action :=
  filledRun ++ [.beginReport 1 true, .saveReport 1 "", .ingest 1 false, .closePosition 1,
    .ingest 1 false, .findPlan 0 1, .readPlanLegs 0, .checkLeg 0, .checkLeg 0, .freeSlot 0]

theorem slotsHeld_resolvedRun : SlotsHeld (start sampleEnv 0) resolvedRun := by
  refine slotsHeld_of_honest sampleEnv 0 resolvedRun ?_
  have hcommit : FreeLegs (run step (start sampleEnv 0) (resolvedRun.take 4)).base
      (.commit 0 .done) := by
    decide +kernel
  exact ⟨trivial, trivial, trivial, trivial, hcommit, trivial, trivial, trivial, trivial, trivial,
    trivial, trivial, trivial, trivial, trivial, trivial, trivial, trivial, trivial, trivial⟩

/-- The slot is freed while the position is open. -/
theorem slotsHeld_broken : ¬ SlotsHeld (start sampleEnv 0) lostAckRun := by
  intro h
  have hcloses : Closes (run step (start sampleEnv 0) (lostAckRun.take 15)) (.freeSlot 0) 1 := by
    decide +kernel
  refine h (lostAckRun.take 15) (.freeSlot 0) [] 1 rfl hcloses [] (List.prefix_refl _) ?_
  have hposition : (run step (start sampleEnv 0) lostAckRun).positions.get 1 =
      some
        { accountId := 1, ticket := "7001", symbol := "XAUUSD", comment := legComment 1 1
          volume := 1 / 100, openTime := 0, jobId := some 1 } := by
    decide +kernel
  have hjob : ((run step (start sampleEnv 0) lostAckRun).base.db.jobs.get 1).map
      (fun job => job.payload.planId) = some 1 := by
    decide +kernel
  obtain ⟨job, hget, hplan⟩ := Option.map_eq_some_iff.mp hjob
  exact ⟨1, _, 1, job, hposition, rfl, rfl, hget, hplan⟩

end Orders
end GuvFX
