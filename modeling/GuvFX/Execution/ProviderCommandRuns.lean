/-
# Commands that are applied leave nothing unmanaged

A command that is applied promises that every order of its plan was cancelled before anybody could
claim it, or that its position is closed, or that a close of it is queued.  What the engine sees of
an order is its job and its trade, and it looks at them at different moments: a job whose claim has
not committed is still pending and is skipped by the cancellation, so that the last look finds
nothing in flight; a trade that arrives between the look for open positions and the last look
settles its order without anybody having queued a close.  In the runs without these, in which the
engine can also queue what it wants to queue, every applied command keeps its promise for ever.
-/
import GuvFX.Execution.ProviderCommands

namespace GuvFX
namespace ProviderCommands

open Runs Promotion Orders
open Consumer (JobType JobStatus)

/-! ### Steps of the orders -/

section Orders

variable {o : Orders.State} {a : Orders.Action} {j k : ℕ}

/-- A step with honest reports and fresh commits. -/
structure Calm (o : Orders.State) (a : Orders.Action) : Prop where
  honest : Honest o a
  fresh : ∀ b, a = .promotion b → Promotion.Fresh o.base b

structure Steady (o : Orders.State) : Prop where
  sound : Sound o
  whole : Whole o.base
  accounts : Accounts o

lemma base_fresh (ha : Calm o a) : (Orders.step o a).base = o.base ∨
    ∃ b, Promotion.Fresh o.base b ∧ (Orders.step o a).base = Promotion.step o.base b := by
  have hbase := base_step o a
  generalize (Orders.step o a).base = base' at hbase
  cases hbase with
  | stays => exact .inl rfl
  | saves _ j status e t => exact .inr ⟨.workJob j status e t, trivial, rfl⟩
  | frees r k => exact .inr ⟨.closePlan k, trivial, rfl⟩
  | promotes b b' hb =>
    refine .inr ⟨b', ?_, rfl⟩
    have hfresh := ha.fresh b rfl
    cases b <;> simp only [seenHere, Option.some.injEq, reduceCtorEq] at hb <;> subst hb <;>
      exact hfresh

lemma steady_start (env : Env) (now : Time) : Steady (Orders.start env now) :=
  ⟨sound_start env now, whole_start env now, accounts_start env now⟩

lemma steady_step (h : Steady o) (ha : Calm o a) : Steady (Orders.step o a) where
  sound := sound_step h.sound ha.honest
  whole := by
    rcases base_fresh ha with heq | ⟨b, -, heq⟩
    · rw [heq]; exact h.whole
    · rw [heq]; exact whole_step h.sound.inv.base h.whole b
  accounts := accounts_step h.sound.inv h.accounts a

lemma voided_kept (h : Steady o) (ha : Calm o a) (hk : Voided o.base.db k) :
    Voided (Orders.step o a).base.db k := by
  rcases base_fresh ha with heq | ⟨b, hb, heq⟩
  · rw [heq]; exact hk
  · rw [heq]; exact Promotion.voided_step h.sound.inv.base hb hk

/-- A job that nobody can claim any more, or whose order is only suppressed. -/
def Unclaimable (o : Orders.State) (j : ℕ) : Prop :=
  ∃ job, o.base.db.jobs.get j = some job ∧ (job.jobType = .placeOrder → job.status ≠ .pending)

lemma unclaimable_step (h : Unclaimable o j) (a : Orders.Action) :
    Unclaimable (Orders.step o a) j := by
  obtain ⟨job, hjob, hno⟩ := h
  obtain ⟨job', hjob', -, -, htype⟩ := job_step hjob a
  refine ⟨job', hjob', fun hplace => ?_⟩
  exact (step_moves o a j).not_pending hjob (hno (htype ▸ hplace)) hjob'

/-- A plan that gets no orders any more: it is voided, or all its legs have a job that nobody can
claim. -/
def Sealed (o : Orders.State) (k : ℕ) : Prop :=
  Voided o.base.db k ∨ k ∈ o.base.db.plans.keys ∧
    ∀ l leg, o.base.db.legs.get l = some leg → leg.planId = k →
      ∃ j, leg.executionJobId = some j ∧ Unclaimable o j

lemma leg_unchanged (h : Steady o) (ha : Calm o a) (hk : k ∈ o.base.db.plans.keys) {l : ℕ}
    {leg' : ProposedOrderLeg} (hleg' : (Orders.step o a).base.db.legs.get l = some leg')
    (hplan : leg'.planId = k) :
    ∃ leg, o.base.db.legs.get l = some leg ∧ leg.planId = k ∧ leg'.legIndex = leg.legIndex ∧
      (leg.executionJobId ≠ none → leg'.executionJobId = leg.executionJobId) :=
  leg_before h.sound ha.honest hk hleg' hplan

lemma sealed_step (h : Steady o) (ha : Calm o a) (hk : Sealed o k) :
    Sealed (Orders.step o a) k := by
  rcases hk with hvoided | ⟨hmem, hlegs⟩
  · exact .inl (voided_kept h ha hvoided)
  · refine .inr ⟨mem_plans_step a hmem, fun l leg' hleg' hplan => ?_⟩
    obtain ⟨leg, hleg, hp, -, hkept⟩ := leg_unchanged h ha hmem hleg' hplan
    obtain ⟨j, hj, hno⟩ := hlegs l leg hleg hp
    exact ⟨j, (hkept (by rw [hj]; exact Option.some_ne_none j)).trans hj,
      unclaimable_step hno a⟩

lemma no_job_of_voided (h : Steady o) (hk : Voided o.base.db k) {l : ℕ} {leg : ProposedOrderLeg}
    (hleg : o.base.db.legs.get l = some leg) (hplan : leg.planId = k) :
    leg.executionJobId = none := by
  cases hj : leg.executionJobId with
  | none => rfl
  | some j =>
    obtain ⟨job, hjob, hp, -⟩ := h.sound.inv.base.linked.legJob l leg j hleg hj
    have hno := noJobs_of_voided h.sound.inv.base.linked h.sound.inv.base.promoted hk
    exact absurd (hp.trans hplan) (hno j job hjob)

lemma leg_of_job (h : Steady o) {job : ExecutionJob} (hjob : o.base.db.jobs.get j = some job) :
    ∃ l leg, o.base.db.legs.get l = some leg ∧ leg.planId = job.payload.planId ∧
      leg.legIndex = job.payload.legIndex ∧ leg.executionJobId = some j := by
  obtain ⟨l, leg, hleg, hplan, hindex, hsome⟩ := h.sound.inv.base.linked.jobLeg j job hjob
  obtain ⟨j', hj'⟩ := Option.ne_none_iff_exists'.mp hsome
  obtain ⟨job', hjob', hp, hi⟩ := h.sound.inv.base.linked.legJob l leg j' hleg hj'
  have heq : j' = j :=
    h.sound.oneJob j' j job' job hjob' hjob (hp.trans hplan) (hi.trans hindex)
  exact ⟨l, leg, hleg, hplan, hindex, heq ▸ hj'⟩

lemma job_before (h : Steady o) (ha : Calm o a) (hk : Sealed o k) {job' : ExecutionJob}
    (hjob' : (Orders.step o a).base.db.jobs.get j = some job') (hplan : job'.payload.planId = k) :
    ∃ job, o.base.db.jobs.get j = some job ∧ job.payload.planId = k := by
  have h' := steady_step h ha
  obtain ⟨l, leg', hleg', hp, -, hj⟩ := leg_of_job h' hjob'
  rcases hk with hvoided | ⟨hmem, hlegs⟩
  · have hnone := no_job_of_voided h' (voided_kept h ha hvoided) hleg' (hp.trans hplan)
    rw [hj] at hnone
    cases hnone
  · obtain ⟨leg, hleg, hp₀, -, hkept⟩ := leg_unchanged h ha hmem hleg' (hp.trans hplan)
    obtain ⟨j₀, hj₀, -⟩ := hlegs l leg hleg hp₀
    have hsame := hkept (by rw [hj₀]; exact Option.some_ne_none j₀)
    have heq : j = j₀ := Option.some.inj (hj.symm.trans (hsame.trans hj₀))
    obtain ⟨job, hjob, hpj, -⟩ := h.sound.inv.base.linked.legJob l leg j₀ hleg hj₀
    exact ⟨job, heq ▸ hjob, hpj.trans hp₀⟩

end Orders

/-! ### What the engine has seen -/

variable {s : State} {a : Action}

def CloseEnqueued (s : State) (position : Position) : Prop :=
  ∃ i job, s.closeJobs.get i = some job ∧ job.accountId = position.accountId ∧
    job.ticket = position.ticket

/-- The order of a job is suppressed, or it is over, or a close of its position is queued. -/
def Handled (s : State) (j : ℕ) : Prop :=
  (∃ job, s.db.jobs.get j = some job ∧ job.jobType ≠ .placeOrder) ∨
    Dead s.orders (s.orders.track j) ∨
      ∃ p position, s.orders.orders j = .filled p ∧ s.orders.positions.get p = some position ∧
        CloseEnqueued s position

/-- The position of a leg whose trade has arrived is closed, or a close of it is queued, or it is
among the open ones that a command has found. -/
def LegSeen (s : State) (target : Target) (opened : List OpenLeg) (leg : ProposedOrderLeg) : Prop :=
  ∀ j p position, leg.executionJobId = some j → s.orders.orders j = .filled p →
    s.orders.positions.get p = some position → s.orders.trades.get p ≠ none →
      position.closeTime.isSome ∨ CloseEnqueued s position ∨
        position.accountId = target.plan.accountId ∧
          ∃ e ∈ opened, e.2.accountId = position.accountId ∧ e.2.ticket = position.ticket

def IsLeg (db : Db) (k : ℕ) (leg : ProposedOrderLeg) : Prop :=
  ∃ l, db.legs.get l = some leg ∧ leg.planId = k

/-- The plan is there, of the account of the command, and gets no orders any more. -/
structure Rooted (s : State) (target : Target) : Prop where
  closed : Sealed s.orders target.planId
  plan : ∃ plan, s.db.plans.get target.planId = some plan ∧
    plan.accountId = target.plan.accountId

def StageSound (s : State) : Command → Prop
  | .pending | .refused => True
  | .targeted target | .applying target => ∃ plan, s.db.plans.get target.planId = some plan ∧
    plan.accountId = target.plan.accountId ∧ plan.status ≠ .held ∧ plan.status ≠ .superseded
  | .cancelled target => Rooted s target
  | .reading target legs opened => Rooted s target ∧ ∀ leg, IsLeg s.db target.planId leg →
    (∃ leg' ∈ legs, leg'.legIndex = leg.legIndex) ∨ LegSeen s target opened leg
  | .closing target opened => Rooted s target ∧
    ∀ leg, IsLeg s.db target.planId leg → LegSeen s target opened leg
  | .rechecking target => Rooted s target ∧
    ∀ leg, IsLeg s.db target.planId leg → LegSeen s target [] leg
  | .applied k => Sealed s.orders k ∧
    ∀ j job, s.db.jobs.get j = some job → job.payload.planId = k → Handled s j

/-! ### Careful steps -/

/-- The plan whose open positions a command looks for. -/
def Command.watches : Command → Option ℕ
  | .reading target _ _ | .closing target _ | .rechecking target => some target.planId
  | _ => none

/-- The plan whose orders a command may cancel. -/
def Command.withdraws : Command → Option Target
  | .applying target => some target
  | _ => none

def Command.nextClose : Command → Option (Target × OpenLeg)
  | .closing target (leg :: _) => some (target, leg)
  | _ => none

/-- The sync of a position creates no trade for a leg of a plan that a command looks at. -/
def NotWatched (s : State) (p : ℕ) : Prop :=
  s.orders.trades.get p = none → ∀ c k, (s.commands c).watches = some k →
    ∀ position, s.orders.positions.get p = some position → ∀ i, position.comment ≠ legComment k i

/-- A plan that is planned no more, and no pending job of which anybody has locked. -/
def Unlocked (s : State) (k : ℕ) (locked : ℕ → Bool) : Prop :=
  (∀ plan ∈ s.db.plans.get k, plan.status ≠ .planned) ∧
    ∀ e ∈ legsOf s.db k, ∀ j ∈ e.2.executionJobId, ∀ job ∈ s.db.jobs.get j,
      job.status = .pending → s.orders.locked j = false ∧ locked j = false

/-- The steps that let the engine see everything and queue what it wants to queue. -/
def Careful (s : State) : Action → Prop
  | .orders (.promotion b) => Promotion.Fresh s.orders.base b
  | .orders (.ingest p _) => NotWatched s p
  | .orders a => Honest s.orders a
  | .cancelPendingOrderJobs c locked =>
    ∀ target ∈ (s.commands c).withdraws, Unlocked s target.planId locked
  | .enqueueClose c => ∀ e ∈ (s.commands c).nextClose,
    (s.orders.base.env.windowsUsername e.1.plan.accountId).getD "" ≠ "" ∧ e.2.2.ticket ≠ ""
  | _ => True

/-- How the orders and the close jobs go on in a careful step. -/
structure Evolves (s s' : State) : Prop where
  closeJobs : ∀ i job, s.closeJobs.get i = some job → ∃ job', s'.closeJobs.get i = some job' ∧
    job'.accountId = job.accountId ∧ job'.ticket = job.ticket
  orders : s'.orders = s.orders ∨ ∃ a, s'.orders = Orders.step s.orders a ∧ Calm s.orders a ∧
    ∀ p stale, a = .ingest p stale → NotWatched s p

lemma Evolves.of_eq {s' : State} (hjobs : s'.closeJobs = s.closeJobs)
    (horders : s'.orders = s.orders) : Evolves s s' := by
  refine ⟨fun i job hjob => ⟨job, ?_, rfl, rfl⟩, .inl horders⟩
  rw [hjobs]
  exact hjob

lemma Evolves.of_promotion {s' : State} (b : Promotion.Action) (hjobs : s'.closeJobs = s.closeJobs)
    (horders : s'.orders = Orders.step s.orders (.promotion b))
    (hb : Promotion.Fresh s.orders.base b) : Evolves s s' := by
  refine ⟨fun i job hjob => ⟨job, ?_, rfl, rfl⟩, .inr ⟨.promotion b, horders, ⟨?_, ?_⟩, ?_⟩⟩
  · rw [hjobs]
    exact hjob
  · exact hb.freeLegs
  · rintro b' ⟨⟩
    exact hb
  · intro p stale hp
    cases hp

lemma Evolves.of_insert {s' : State} (job : CloseJob)
    (hjobs : s'.closeJobs = s.closeJobs.insert s.closeJobs.fresh job)
    (horders : s'.orders = s.orders) : Evolves s s' := by
  refine ⟨fun i job' hjob' => ⟨job', ?_, rfl, rfl⟩, .inl horders⟩
  rw [hjobs]
  exact Table.get_insert_of_get s.closeJobs.fresh_not_mem hjob'

lemma evolves_enqueueClose {s' : State} (env : Env) (target : Target) (leg : OpenLeg)
    (hjobs : s'.closeJobs = enqueueClose env s.closeJobs target leg)
    (horders : s'.orders = s.orders) : Evolves s s' := by
  dsimp only [enqueueClose] at hjobs
  split_ifs at hjobs
  · exact .of_eq hjobs horders
  · exact .of_eq hjobs horders
  · exact .of_insert _ hjobs horders

lemma Careful.honest {a : Orders.Action} (ha : Careful s (.orders a)) : Honest s.orders a := by
  cases a with
  | promotion b => exact Fresh.freeLegs ha
  | ingest => trivial
  | _ => exact ha

theorem evolves_step (ha : Careful s a) : Evolves s (step s a) := by
  cases a with
  | orders a =>
    dsimp only [step]
    split_ifs with hcommand
    · exact .of_eq rfl rfl
    · refine ⟨fun i job hjob => ⟨job, hjob, rfl, rfl⟩, .inr ⟨a, rfl, ⟨?_, ?_⟩, ?_⟩⟩
      · exact ha.honest
      · rintro b rfl
        exact ha
      · rintro p stale rfl
        exact ha
  | createCloseJob job => exact .of_insert job rfl rfl
  | workCloseJob i status =>
    refine ⟨fun i' job hjob => ?_, .inl rfl⟩
    dsimp only [step]
    rw [Table.get_modify]
    split_ifs with hi
    · subst hi
      rw [hjob]
      exact ⟨_, rfl, rfl, rfl⟩
    · exact ⟨job, hjob, rfl, rfl⟩
  | expire c =>
    dsimp only [step]
    cases s.commands c <;> exact .of_eq rfl rfl
  | resolveTargetPlan c =>
    dsimp only [step]
    cases s.commands c with
    | pending =>
      dsimp only [resolveTargetPlan]
      split <;> exact .of_eq rfl rfl
    | _ => exact .of_eq rfl rfl
  | applyCommand c =>
    dsimp only [step]
    cases s.commands c with
    | targeted target =>
      exact .of_promotion (.command c target.planId (s.types c = .closeAll) fun _ => false) rfl rfl
        trivial
    | _ => exact .of_eq rfl rfl
  | cancelPlan c =>
    dsimp only [step]
    split
    · exact .of_promotion (.cancelPlan c) rfl rfl trivial
    · exact .of_eq rfl rfl
  | cancelPendingOrderJobs c locked =>
    dsimp only [step]
    split
    · exact .of_promotion (.cancelJobs c locked) rfl rfl trivial
    · exact .of_eq rfl rfl
  | openLegs c =>
    dsimp only [step]
    cases s.commands c <;> exact .of_eq rfl rfl
  | legTrade c =>
    dsimp only [step]
    cases s.commands c <;> exact .of_eq rfl rfl
  | enqueueClose c =>
    dsimp only [step]
    split
    · exact evolves_enqueueClose _ _ _ rfl rfl
    · exact .of_eq rfl rfl
    · exact .of_eq rfl rfl
  | recheck c =>
    dsimp only [step]
    cases s.commands c <;> exact .of_eq rfl rfl

/-! ### What stays true -/

variable {s' : State}

lemma CloseEnqueued.later (he : Evolves s s') {position position' : Position}
    (h : CloseEnqueued s position) (haccount : position'.accountId = position.accountId)
    (hticket : position'.ticket = position.ticket) : CloseEnqueued s' position' := by
  obtain ⟨i, job, hjob, ha, ht⟩ := h
  obtain ⟨job', hjob', ha', ht'⟩ := he.closeJobs i job hjob
  exact ⟨i, job', hjob', (ha'.trans ha).trans haccount.symm, (ht'.trans ht).trans hticket.symm⟩

lemma steady_later (h : Steady s.orders) (he : Evolves s s') : Steady s'.orders := by
  rcases he.orders with heq | ⟨a, heq, hcalm, -⟩
  · rw [heq]; exact h
  · rw [heq]; exact steady_step h hcalm

lemma sealed_later (h : Steady s.orders) (he : Evolves s s') {k : ℕ} (hk : Sealed s.orders k) :
    Sealed s'.orders k := by
  rcases he.orders with heq | ⟨a, heq, hcalm, -⟩
  · rw [heq]; exact hk
  · rw [heq]; exact sealed_step h hcalm hk

lemma plan_later (he : Evolves s s') {k : ℕ} {plan : SignalExecutionPlan}
    (hplan : s.db.plans.get k = some plan) : ∃ plan', s'.db.plans.get k = some plan' ∧
      plan'.accountId = plan.accountId ∧ (plan.status ≠ .held ∧ plan.status ≠ .superseded →
        plan'.status ≠ .held ∧ plan'.status ≠ .superseded) := by
  have hstep : ∀ b, ∃ plan', (Promotion.step s.orders.base b).db.plans.get k = some plan' ∧
      plan'.accountId = plan.accountId ∧ (plan.status ≠ .held ∧ plan.status ≠ .superseded →
        plan'.status ≠ .held ∧ plan'.status ≠ .superseded) := by
    intro b
    have hmoves := plan_step s.orders.base b k
    rw [show s.orders.base.db.plans.get k = some plan from hplan] at hmoves
    generalize (Promotion.step s.orders.base b).db.plans.get k = row' at hmoves
    cases hmoves with
    | stays => exact ⟨plan, rfl, rfl, id⟩
    | voided | promoted | closed =>
      exact ⟨_, rfl, rfl, fun _ => ⟨fun hn => (nomatch hn), fun hn => nomatch hn⟩⟩
  rcases he.orders with heq | ⟨a, heq, hcalm, -⟩
  · exact ⟨plan, by rw [State.db, heq]; exact hplan, rfl, id⟩
  · rw [State.db, heq]
    rcases base_fresh hcalm with hbase | ⟨b, -, hbase⟩
    · rw [hbase]; exact ⟨plan, hplan, rfl, id⟩
    · rw [hbase]; exact hstep b

variable {target : Target}

lemma Rooted.later (h : Steady s.orders) (he : Evolves s s') (hr : Rooted s target) :
    Rooted s' target := by
  obtain ⟨plan, hplan, haccount⟩ := hr.plan
  obtain ⟨plan', hplan', haccount', -⟩ := plan_later he hplan
  exact ⟨sealed_later h he hr.closed, plan', hplan', haccount'.trans haccount⟩

lemma handled_later (he : Evolves s s') {j : ℕ} (hj : Handled s j) : Handled s' j := by
  rcases he.orders with heq | ⟨a, heq, -, -⟩
  · rcases hj with ⟨job, hjob, htype⟩ | hdead | ⟨p, position, hfilled, hposition, hclose⟩
    · exact .inl ⟨job, by rw [State.db, heq]; exact hjob, htype⟩
    · exact .inr (.inl (by rw [heq]; exact hdead))
    · refine .inr (.inr ⟨p, position, ?_, ?_, hclose.later he rfl rfl⟩)
      · rw [heq]; exact hfilled
      · rw [heq]; exact hposition
  · rcases hj with ⟨job, hjob, htype⟩ | hdead | ⟨p, position, hfilled, hposition, hclose⟩
    · obtain ⟨job', hjob', -, -, htype'⟩ := job_step hjob a
      exact .inl ⟨job', by rw [State.db, heq]; exact hjob', by rwa [htype']⟩
    · exact .inr (.inl (by rw [heq]; exact dead_step a hdead))
    · obtain ⟨closeTime, hposition', -⟩ := (position_step s.orders a p).kept hposition
      have hclose' : CloseEnqueued s' { position with closeTime } := hclose.later he rfl rfl
      refine .inr (.inr ⟨p, _, ?_, ?_, hclose'⟩)
      · rw [heq]; exact (step_moves s.orders a j).order_filled hfilled
      · rw [heq]; exact hposition'

lemma trade_before (h : Steady s.orders) {a : Orders.Action} {k c j p : ℕ}
    (hwatch : ∀ stale, a = .ingest p stale → NotWatched s p)
    (hc : (s.commands c).watches = some k) {job : ExecutionJob}
    (hjob : s.db.jobs.get j = some job) (hplan : job.payload.planId = k)
    (hfilled : s.orders.orders j = .filled p)
    (htrade : (Orders.step s.orders a).trades.get p ≠ none) : s.orders.trades.get p ≠ none := by
  by_cases ha : a.actor = .sync
  · cases a <;> cases ha
    rename_i q stale
    by_cases hp : p = q
    · subst hp
      intro hnone
      obtain ⟨position, hposition, hid⟩ := h.sound.inv.filled j p hfilled
      obtain ⟨job', hjob', hcomment, -, -⟩ := (h.sound.inv.opened p position j hposition hid).job
      rw [show s.orders.base.db.jobs.get j = some job from hjob] at hjob'
      cases hjob'
      rw [h.sound.inv.comment j job hjob, hplan] at hcomment
      exact hwatch stale rfl hnone c k hc position hposition job.payload.legIndex hcomment
    · intro hnone
      refine htrade ?_
      dsimp only [Orders.step, ingest]
      cases s.orders.positions.get q with
      | none => exact hnone
      | some position => exact (get_upsertTrade_of_ne hp).trans hnone
  · rwa [(frame s.orders a).trades ha] at htrade

lemma legSeen_later (h : Steady s.orders) (he : Evolves s s') {c : ℕ}
    (hc : (s.commands c).watches = some target.planId) (hk : Sealed s.orders target.planId)
    (opened : List OpenLeg) {leg' : ProposedOrderLeg} (hleg' : IsLeg s'.db target.planId leg') :
    ∃ leg, IsLeg s.db target.planId leg ∧ leg'.legIndex = leg.legIndex ∧
      (LegSeen s target opened leg → LegSeen s' target opened leg') := by
  rcases he.orders with heq | ⟨a, heq, hcalm, hwatch⟩
  · refine ⟨leg', by rw [State.db, heq] at hleg'; exact hleg', rfl, fun hseen => ?_⟩
    intro j p position hj hfilled hposition htrade
    rw [heq] at hfilled hposition htrade
    rcases hseen j p position hj hfilled hposition htrade with hclosed | hclose | hopened
    · exact .inl hclosed
    · exact .inr (.inl (hclose.later he rfl rfl))
    · exact .inr (.inr hopened)
  · obtain ⟨l, hl, hplan⟩ := hleg'
    rw [State.db, heq] at hl
    rcases hk with hvoided | ⟨hmem, hlegs⟩
    · -- a voided plan has no orders
      have hmem : target.planId ∈ s.orders.base.db.plans.keys := by
        obtain ⟨plan, hget, -⟩ := hvoided
        exact Table.mem_keys_of_get hget
      obtain ⟨leg, hleg, hp, hindex, -⟩ := leg_unchanged h hcalm hmem hl hplan
      refine ⟨leg, ⟨l, hleg, hp⟩, hindex, fun _ j p position hj => ?_⟩
      have hnone := no_job_of_voided (steady_step h hcalm) (voided_kept h hcalm hvoided) hl hplan
      rw [hj] at hnone
      cases hnone
    · obtain ⟨leg, hleg, hp, hindex, hkept⟩ := leg_unchanged h hcalm hmem hl hplan
      refine ⟨leg, ⟨l, hleg, hp⟩, hindex, fun hseen j p position' hj hfilled' hposition' htrade' => ?_⟩
      obtain ⟨j₀, hj₀, -⟩ := hlegs l leg hleg hp
      have hjob : leg.executionJobId = some j := by
        rw [← hkept (by rw [hj₀]; exact Option.some_ne_none j₀)]
        exact hj
      obtain ⟨job, hget, hpj, -⟩ := h.sound.inv.base.linked.legJob l leg j hleg hjob
      rw [heq] at hfilled' hposition' htrade'
      -- the order was filled before
      have hfilled : s.orders.orders j = .filled p := by
        rcases (step_moves s.orders a j).of_order_filled hfilled' with hold | ⟨-, hfresh, ticket, ha⟩
        · exact hold
        · exfalso
          subst ha
          rw [(frame s.orders _).trades (by simp [Orders.Action.actor]), hfresh] at htrade'
          obtain ⟨trade, htrade⟩ := Option.ne_none_iff_exists'.mp htrade'
          obtain ⟨position, hposition, -⟩ := h.sound.inv.trade _ trade htrade
          exact s.orders.positions.fresh_not_mem (Table.mem_keys_of_get hposition)
      obtain ⟨position, hposition, -⟩ := h.sound.inv.filled j p hfilled
      obtain ⟨closeTime, hkept', hclosed'⟩ := (position_step s.orders a p).kept hposition
      rw [hposition'] at hkept'
      cases hkept'
      have htrade := trade_before h (fun stale ha => hwatch p stale ha) hc hget (hpj.trans hp)
        hfilled htrade'
      rcases hseen j p position hjob hfilled hposition htrade with hclosed | hclose | hopened
      · exact .inl (hclosed' hclosed)
      · exact .inr (.inl (hclose.later he rfl rfl))
      · exact .inr (.inr hopened)

lemma stageSound_later (h : Steady s.orders) (he : Evolves s s') {c : ℕ}
    (hc : StageSound s (s.commands c)) : StageSound s' (s.commands c) := by
  cases hcmd : s.commands c with
  | pending | refused => trivial
  | targeted target | applying target =>
    rw [hcmd] at hc
    obtain ⟨plan, hplan, haccount, hstatus⟩ := hc
    obtain ⟨plan', hplan', haccount', hstatus'⟩ := plan_later he hplan
    exact ⟨plan', hplan', haccount'.trans haccount, hstatus' hstatus⟩
  | cancelled target =>
    rw [hcmd] at hc
    exact hc.later h he
  | reading target legs opened =>
    rw [hcmd] at hc
    refine ⟨hc.1.later h he, fun leg' hleg' => ?_⟩
    obtain ⟨leg, hleg, hindex, hseen⟩ :=
      legSeen_later h he (by rw [hcmd]; rfl) hc.1.closed opened hleg'
    rcases hc.2 leg hleg with ⟨leg₀, hmem, hsame⟩ | hold
    · exact .inl ⟨leg₀, hmem, hsame.trans hindex.symm⟩
    · exact .inr (hseen hold)
  | closing target opened =>
    rw [hcmd] at hc
    refine ⟨hc.1.later h he, fun leg' hleg' => ?_⟩
    obtain ⟨leg, hleg, -, hseen⟩ :=
      legSeen_later h he (by rw [hcmd]; rfl) hc.1.closed opened hleg'
    exact hseen (hc.2 leg hleg)
  | rechecking target =>
    rw [hcmd] at hc
    refine ⟨hc.1.later h he, fun leg' hleg' => ?_⟩
    obtain ⟨leg, hleg, -, hseen⟩ :=
      legSeen_later h he (by rw [hcmd]; rfl) hc.1.closed [] hleg'
    exact hseen (hc.2 leg hleg)
  | applied k =>
    rw [hcmd] at hc
    refine ⟨sealed_later h he hc.1, fun j job' hjob' hplan => ?_⟩
    rcases he.orders with heq | ⟨a, heq, hcalm, -⟩
    · rw [State.db, heq] at hjob'
      exact handled_later he (hc.2 j job' hjob' hplan)
    · rw [State.db, heq] at hjob'
      obtain ⟨job, hjob, hp⟩ := job_before h hcalm hc.1 hjob' hplan
      exact handled_later he (hc.2 j job hjob hp)

/-! ### What a command does next -/

def Command.Linked (command : Command) (base : Promotion.Command) : Prop :=
  match command with
  | .applying target => base = .cancelling target.planId ∨ base = .withdrawing target.planId
  | _ => base = .idle

lemma filled_of_trade (h : Steady s.orders) {leg : ProposedOrderLeg} {j p : ℕ}
    (hleg : IsLeg s.db target.planId leg) (hj : leg.executionJobId = some j)
    (hfilled : s.orders.orders j = .filled p) {trade : Trade}
    (htrade : tradeOfLeg s.orders.trades target leg = some trade) :
    s.orders.trades.get p = some trade := by
  obtain ⟨l, hl, hplan⟩ := hleg
  obtain ⟨q, hq, -, hcomment⟩ := of_legTrade htrade
  obtain ⟨position, hposition, hshows⟩ := h.sound.inv.trade q trade hq
  obtain ⟨job, hjob, hp, hi⟩ := h.sound.inv.base.linked.legJob l leg j hl hj
  have hfilled' : s.orders.orders j = .filled q := by
    refine filled_of_comment h.sound hposition hjob ?_
    rw [← hshows.comment, hcomment, hp, hi, hplan]
  rw [hfilled] at hfilled'
  cases hfilled'
  exact hq

lemma tradeOfLeg_of_filled (h : Steady s.orders) {leg : ProposedOrderLeg} {j p : ℕ}
    {plan : SignalExecutionPlan} (hplan : s.db.plans.get target.planId = some plan)
    (haccount : plan.accountId = target.plan.accountId) (hleg : IsLeg s.db target.planId leg)
    (hj : leg.executionJobId = some j) (hfilled : s.orders.orders j = .filled p)
    {position : Position} (hposition : s.orders.positions.get p = some position) {trade : Trade}
    (htrade : s.orders.trades.get p = some trade) :
    position.accountId = target.plan.accountId ∧
      tradeOfLeg s.orders.trades target leg = some trade := by
  obtain ⟨l, hl, hlegplan⟩ := hleg
  obtain ⟨job, hjob, hp, hi⟩ := h.sound.inv.base.linked.legJob l leg j hl hj
  obtain ⟨position', hposition', hid⟩ := h.sound.inv.filled j p hfilled
  rw [hposition] at hposition'
  cases hposition'
  obtain ⟨job', hjob', hcomment, hacc, -⟩ := (h.sound.inv.opened p position j hposition hid).job
  rw [hjob] at hjob'
  cases hjob'
  have haccount' : position.accountId = target.plan.accountId := by
    rw [hacc, ← haccount]
    exact h.accounts.job j job hjob plan (by rw [hp, hlegplan]; exact hplan)
  refine ⟨haccount', ?_⟩
  obtain ⟨position', hposition', hshows⟩ := h.sound.inv.trade p trade htrade
  rw [hposition] at hposition'
  cases hposition'
  have hmem : (p, trade) ∈ s.orders.trades.filter fun _ row =>
      row.accountId = target.plan.accountId ∧
        row.comment = legComment target.planId leg.legIndex := by
    refine Table.mem_filter.mpr ⟨htrade, decide_eq_true ⟨?_, ?_⟩⟩
    · rw [hshows.accountId, haccount']
    · rw [hshows.comment, hcomment, h.sound.inv.comment j job hjob, hp, hi, hlegplan]
  have hsome : (tradeOfLeg s.orders.trades target leg).isSome := by
    unfold tradeOfLeg Orders.legTrade
    rw [Option.isSome_map, List.isSome_head?]
    intro hempty
    have hin := (List.mem_insertionSort
      (fun (e e' : ℕ × Trade) => e'.2.openTime ≤ e.2.openTime)).mpr hmem
    rw [hempty] at hin
    cases hin
  obtain ⟨trade', htrade'⟩ := Option.isSome_iff_exists.mp hsome
  have hsame := filled_of_trade h ⟨l, hl, hlegplan⟩ hj hfilled htrade'
  rw [htrade] at hsame
  cases hsame
  exact htrade'

lemma readLeg_sound (h : Steady s.orders) {legs : List ProposedOrderLeg} {opened : List OpenLeg}
    (hc : StageSound s (.reading target legs opened)) :
    StageSound s (readLeg s.orders.trades target opened legs) := by
  obtain ⟨hroot, hlegs⟩ := hc
  cases legs with
  | nil =>
    refine ⟨hroot, fun leg hleg => ?_⟩
    rcases hlegs leg hleg with ⟨leg', hmem, -⟩ | hseen
    · exact absurd hmem List.not_mem_nil
    · exact hseen
  | cons first rest =>
    obtain ⟨plan, hplan, haccount⟩ := hroot.plan
    -- the leg that is looked at is seen with what is found of it
    have hfirst : ∀ opened', (∀ e ∈ opened, e ∈ opened') →
        (∀ trade, tradeOfLeg s.orders.trades target first = some trade → trade.closeTime = none →
          ∃ e ∈ opened', e.2 = trade) →
        ∀ leg, IsLeg s.db target.planId leg →
          (∃ leg' ∈ rest, leg'.legIndex = leg.legIndex) ∨ LegSeen s target opened' leg := by
      intro opened' hsub hfound leg hleg
      rcases hlegs leg hleg with ⟨leg', hmem, hindex⟩ | hseen
      · rcases List.mem_cons.mp hmem with rfl | hrest
        · refine .inr fun j p position hj hfilled hposition htrade => ?_
          obtain ⟨trade, htrade⟩ := Option.ne_none_iff_exists'.mp htrade
          obtain ⟨hacc, hof⟩ := tradeOfLeg_of_filled h hplan haccount hleg hj hfilled hposition htrade
          obtain ⟨position', hposition', hshows⟩ := h.sound.inv.trade p trade htrade
          rw [hposition] at hposition'
          cases hposition'
          cases hclose : trade.closeTime with
          | some t => exact .inl (hshows.closed (by rw [hclose]; rfl))
          | none =>
            have hof' : tradeOfLeg s.orders.trades target leg' = some trade := by
              rw [tradeOfLeg, hindex]
              exact hof
            obtain ⟨e, he, rfl⟩ := hfound trade hof' hclose
            exact .inr (.inr ⟨hacc, e, he, hshows.accountId, hshows.ticket⟩)
        · exact .inl ⟨leg', hrest, hindex⟩
      · refine .inr fun j p position hj hfilled hposition htrade => ?_
        rcases hseen j p position hj hfilled hposition htrade with hclosed | hclose | ⟨hacc, e, he, ht⟩
        · exact .inl hclosed
        · exact .inr (.inl hclose)
        · exact .inr (.inr ⟨hacc, e, hsub e he, ht⟩)
    dsimp only [readLeg]
    cases htrade : (tradeOfLeg s.orders.trades target first).filter (·.closeTime.isNone) with
    | none =>
      refine ⟨hroot, hfirst opened (fun _ he => he) fun trade hof hclose => ?_⟩
      rw [hof, Option.filter_some, hclose] at htrade
      cases htrade
    | some trade =>
      refine ⟨hroot, hfirst _ (fun e he => List.mem_append_left _ he) fun trade' hof _ => ?_⟩
      have hsame := (Option.filter_eq_some_iff.mp htrade).1
      rw [hof] at hsame
      cases hsame
      exact ⟨(first, trade), List.mem_append_right _ List.mem_cons_self, rfl⟩

lemma closeEnqueued_enqueueClose {leg : OpenLeg} {env : Env}
    (husername : (env.windowsUsername target.plan.accountId).getD "" ≠ "")
    (hticket : leg.2.ticket ≠ "") (haccount : leg.2.accountId = target.plan.accountId) :
    ∃ i job, (enqueueClose env s.closeJobs target leg).get i = some job ∧
      job.accountId = target.plan.accountId ∧ job.ticket = leg.2.ticket := by
  dsimp only [enqueueClose]
  rw [if_neg (not_or.mpr ⟨husername, hticket⟩)]
  split_ifs with hclosing
  · obtain ⟨⟨i, job⟩, hfirst⟩ := Option.isSome_iff_exists.mp hclosing
    have hjob := of_decide_eq_true (Table.of_first hfirst)
    exact ⟨i, job, Table.get_of_first hfirst, hjob.2.1.trans haccount, hjob.2.2⟩
  · exact ⟨s.closeJobs.fresh, _, by rw [Table.get_insert _ s.closeJobs.fresh_not_mem, if_pos rfl],
      rfl, rfl⟩

lemma recheck_sound (h : Steady s.orders) (hc : StageSound s (.rechecking target))
    (hno : hasUnresolvedFills s.db target.planId
      (Orders.ingested s.orders.trades target.plan.accountId) = false) :
    StageSound s (.applied target.planId) := by
  obtain ⟨hroot, hlegs⟩ := hc
  refine ⟨hroot.closed, fun j job hjob hplan => ?_⟩
  obtain ⟨l, leg, hl, hp, hi, hj⟩ := leg_of_job h hjob
  have hleg : IsLeg s.db target.planId leg := ⟨l, hl, hp.trans hplan⟩
  rw [hasUnresolvedFills, List.any_eq_false] at hno
  have hthis := hno (l, leg) (mem_legsOf.mpr ⟨hl, hp.trans hplan⟩)
  simp only [hj, Option.bind_some, hjob, decide_eq_true_eq, not_or, not_and,
    Bool.not_eq_false] at hthis
  obtain ⟨hrunning, hsuccess⟩ := hthis
  by_cases htype : job.jobType = .placeOrder
  · refine .inr ?_
    cases hstatus : job.status with
    | running => exact absurd hstatus hrunning
    | pending =>
      -- a plan that is sealed has no pending order
      exfalso
      rcases hroot.closed with hvoided | ⟨-, hsealed⟩
      · have hnone := no_job_of_voided h hvoided hl (hp.trans hplan)
        rw [hj] at hnone
        cases hnone
      · obtain ⟨j', hj', job', hjob', hnp⟩ := hsealed l leg hl (hp.trans hplan)
        rw [hj] at hj'
        cases hj'
        rw [show s.orders.base.db.jobs.get j = some job from hjob] at hjob'
        cases hjob'
        exact hnp htype hstatus
    | failed => exact .inl ((h.sound.truthful j).failed job hjob hstatus)
    | success =>
      obtain ⟨trade, htrade⟩ := Option.isSome_iff_exists.mp (hsuccess hstatus)
      obtain ⟨p, hget, -, hcomment⟩ := of_legTrade htrade
      obtain ⟨position, hposition, hshows⟩ := h.sound.inv.trade p trade hget
      have hfilled : s.orders.orders j = .filled p := by
        refine filled_of_comment h.sound hposition hjob ?_
        rw [← hshows.comment, hcomment, hi, hplan]
      rcases hlegs leg hleg j p position hj hfilled hposition (by rw [hget]; simp) with
        hclosed | hclose | ⟨-, e, he, -⟩
      · refine .inl ⟨?_, fun hu => ?_⟩
        · show OrderOver s.orders (s.orders.orders j)
          rw [hfilled]
          exact ⟨position, hposition, hclosed⟩
        · exact nomatch hfilled.symm.trans hu
      · exact .inr ⟨p, position, hfilled, hposition, hclose⟩
      · exact absurd he List.not_mem_nil
  · exact .inl ⟨job, hjob, htype⟩

def cancelAll (locked : ℕ → Bool) (now : Time) (ids : List ℕ) (jobs : Table ExecutionJob) :
    Table ExecutionJob :=
  ids.foldl (fun jobs j => jobs.modify j fun job =>
    if locked j = false ∧ job.status = .pending ∧ job.jobType ∈ [.placeOrder, .placeTestOrder] then
      cancelledJob job now
    else job) jobs

lemma cancelAll_cons (locked : ℕ → Bool) (now : Time) (i : ℕ) (ids : List ℕ)
    (jobs : Table ExecutionJob) :
    cancelAll locked now (i :: ids) jobs = cancelAll locked now ids (jobs.modify i fun job =>
      if locked i = false ∧ job.status = .pending ∧ job.jobType ∈ [.placeOrder, .placeTestOrder] then
        cancelledJob job now
      else job) := rfl

lemma cancelAll_not_pending {locked : ℕ → Bool} {now : Time} {ids : List ℕ}
    {jobs : Table ExecutionJob} {j : ℕ} {job : ExecutionJob} (hjob : jobs.get j = some job)
    (hno : job.status ≠ .pending) : (cancelAll locked now ids jobs).get j = some job := by
  induction ids generalizing jobs with
  | nil => exact hjob
  | cons i ids ih =>
    rw [cancelAll_cons]
    refine ih ?_
    rw [Table.get_modify]
    split_ifs with hi
    · rw [← hi, hjob, Option.map_some, if_neg fun hcond => hno hcond.2.1]
    · exact hjob

lemma cancelAll_of_mem {locked : ℕ → Bool} {now : Time} {ids : List ℕ} {jobs : Table ExecutionJob}
    {j : ℕ} {job : ExecutionJob} (hj : j ∈ ids) (hjob : jobs.get j = some job)
    (hfree : job.status = .pending → locked j = false) (htype : job.jobType = .placeOrder) :
    ∃ job', (cancelAll locked now ids jobs).get j = some job' ∧ job'.status ≠ .pending := by
  by_cases hpending : job.status = .pending
  · induction ids generalizing jobs with
    | nil => exact absurd hj List.not_mem_nil
    | cons i ids ih =>
      rw [cancelAll_cons]
      by_cases hi : j = i
      · subst hi
        have hcond : locked j = false ∧ job.status = .pending ∧
            job.jobType ∈ [JobType.placeOrder, .placeTestOrder] :=
          ⟨hfree hpending, hpending, by rw [htype]; exact List.mem_cons_self⟩
        refine ⟨cancelledJob job now, cancelAll_not_pending ?_ ?_, fun hn => nomatch hn⟩
        · rw [Table.get_modify_self, hjob, Option.map_some, if_pos hcond]
        · exact fun hn => nomatch hn
      · refine ih ((List.mem_cons.mp hj).resolve_left hi) ?_
        rwa [Table.get_modify_of_ne _ _ hi]
  · exact ⟨job, cancelAll_not_pending hjob hpending, hpending⟩

lemma unclaimable_cancel {db : Db} {k l j : ℕ} {leg : ProposedOrderLeg} (locked : ℕ → Bool)
    (now : Time) {job : ExecutionJob} (hleg : (l, leg) ∈ legsOf db k)
    (hj : leg.executionJobId = some j) (hjob : db.jobs.get j = some job)
    (hfree : job.status = .pending → locked j = false) (htype : job.jobType = .placeOrder) :
    ∃ job', (Promotion.cancelPendingOrderJobs db k locked now).jobs.get j = some job' ∧
      job'.status ≠ .pending := by
  have hmem : j ∈ (legsOf db k).filterMap fun leg => leg.2.executionJobId :=
    List.mem_filterMap.mpr ⟨(l, leg), hleg, hj⟩
  exact cancelAll_of_mem hmem hjob hfree htype

lemma cancel_sound (h : Steady s.orders) {c : ℕ} {locked : ℕ → Bool}
    (hc : StageSound s (.applying target))
    (hlink : s.orders.base.commands c = .withdrawing target.planId)
    (hfree : Unlocked s target.planId locked) (he : Evolves s s')
    (hs' : s'.orders = Orders.step s.orders (.promotion (.cancelJobs c locked))) :
    StageSound s' (.cancelled target) := by
  obtain ⟨plan, hplan, haccount, hheld, hsuperseded⟩ := hc
  obtain ⟨plan', hplan', haccount', -⟩ := plan_later he hplan
  refine ⟨?_, plan', hplan', haccount'.trans haccount⟩
  have hmem : target.planId ∈ s.orders.base.db.plans.keys := Table.mem_keys_of_get hplan
  have hdb : s'.orders.base.db = Promotion.cancelPendingOrderJobs s.orders.base.db target.planId
      (fun j => s.orders.locked j || locked j) s.orders.base.now := by
    rw [hs']
    simp only [Orders.step, seenHere, Orders.State.withBase, Promotion.step, hlink]
    rfl
  cases hstatus : plan.status with
  | planned => exact absurd hstatus (hfree.1 plan hplan)
  | held => exact absurd hstatus hheld
  | superseded => exact absurd hstatus hsuperseded
  | voided => exact sealed_later h he (.inl ⟨plan, hplan, hstatus⟩)
  | promoted | closed =>
    refine .inr ⟨by rw [hdb]; exact hmem, fun l leg hleg hp => ?_⟩
    have hleg : s.orders.base.db.legs.get l = some leg := by
      rwa [hdb] at hleg
    have hsome := h.whole.promoted target.planId plan hplan (by rw [hstatus]; simp) l leg hleg hp
    obtain ⟨j, hj⟩ := Option.ne_none_iff_exists'.mp hsome
    obtain ⟨job, hjob, -, -⟩ := h.sound.inv.base.linked.legJob l leg j hleg hj
    have hin := mem_legsOf.mpr ⟨hleg, hp⟩
    refine ⟨j, hj, ?_⟩
    by_cases htype : job.jobType = .placeOrder
    · have hunlocked : job.status = .pending → (s.orders.locked j || locked j) = false := by
        intro hpending
        obtain ⟨h₁, h₂⟩ := hfree.2 (l, leg) hin j hj job hjob hpending
        rw [h₁, h₂]
        rfl
      obtain ⟨job', hjob', hno⟩ := unclaimable_cancel
        (fun j => s.orders.locked j || locked j) s.orders.base.now hin hj hjob hunlocked htype
      exact ⟨job', by rw [hdb]; exact hjob', fun _ => hno⟩
    · obtain ⟨job', hjob', -, -, htype'⟩ :=
        job_step hjob (.promotion (.cancelJobs c locked))
      exact ⟨job', by rw [hs']; exact hjob', fun hplace => absurd (htype' ▸ hplace) htype⟩

/-! ### The own commands of the promotions -/

lemma promotion_commands (base : Promotion.State) {b : Promotion.Action}
    (hb : isCommand (.promotion b) = false) : (Promotion.step base b).commands = base.commands := by
  cases b with
  | command | cancelPlan | cancelJobs => cases hb
  | load p k mode auto =>
    dsimp only [Promotion.step]
    cases base.promoters p with
    | idle =>
      dsimp only [Promotion.load]
      cases base.db.plans.get k with
      | none => rfl
      | some plan =>
        dsimp only
        split_ifs <;> rfl
    | loaded | validated | ready | rejected => rfl
  | validate p =>
    dsimp only [Promotion.step]
    cases base.promoters p with
    | loaded session =>
      dsimp only [validateSession]
      split_ifs
      · rfl
      · split <;> rfl
    | idle | validated | ready | rejected => rfl
  | readLegs p =>
    dsimp only [Promotion.step]
    cases base.promoters p <;> rfl
  | commit p outcome =>
    dsimp only [Promotion.step]
    cases base.promoters p with
    | ready session =>
      cases outcome with
      | done | otherError => rfl
      | integrityError =>
        dsimp only [Promotion.commit]
        split_ifs <;> rfl
    | idle | loaded | validated | rejected => rfl
  | voidRejected p =>
    dsimp only [Promotion.step]
    cases base.promoters p <;> rfl
  | sweep q threshold filter limit =>
    dsimp only [Promotion.step]
    cases orphanedPlannedPlans base.db base.now threshold filter limit <;> rfl
  | reclaim q =>
    dsimp only [Promotion.step]
    cases base.sweeps q <;> rfl
  | _ => rfl

lemma base_commands (o : Orders.State) {a : Orders.Action} (ha : isCommand a = false) :
    (Orders.step o a).base.commands = o.base.commands := by
  have hbase := base_step o a
  generalize (Orders.step o a).base = base' at hbase
  cases hbase with
  | stays => rfl
  | saves => rfl
  | frees => rfl
  | promotes b b' hb =>
    refine promotion_commands o.base ?_
    cases b <;> simp only [seenHere, Option.some.injEq, reduceCtorEq] at hb <;> subst hb <;> exact ha

lemma command_started (o : Orders.State) (c k : ℕ) (closeAll : Bool) (f : String → Bool)
    (hidle : o.base.commands c = .idle) :
    let o' := Orders.step o (.promotion (.command c k closeAll f))
    o'.base.db = o.base.db ∧ (∀ c', c' ≠ c → o'.base.commands c' = o.base.commands c') ∧
      (o'.base.commands c = .idle ∨ o'.base.commands c = .cancelling k ∨
        o'.base.commands c = .withdrawing k) := by
  simp only [Orders.step, seenHere, Orders.State.withBase, Promotion.step, hidle, startCommand]
  split_ifs
  · exact ⟨rfl, fun _ _ => rfl, .inl hidle⟩
  · exact ⟨rfl, fun c' hc => Function.update_of_ne hc .., .inr (.inr (Function.update_self ..))⟩
  · exact ⟨rfl, fun c' hc => Function.update_of_ne hc .., .inr (.inl (Function.update_self ..))⟩

lemma plan_cancelled (o : Orders.State) (c k : ℕ) (hc : o.base.commands c = .cancelling k) :
    let o' := Orders.step o (.promotion (.cancelPlan c))
    (∀ c', c' ≠ c → o'.base.commands c' = o.base.commands c') ∧
      (o'.base.commands c = .idle ∧ Voided o'.base.db k ∨ o'.base.commands c = .withdrawing k) := by
  simp only [Orders.step, seenHere, Orders.State.withBase, Promotion.step, hc, applyCancel]
  refine ⟨fun c' hc' => Function.update_of_ne hc' .., ?_⟩
  by_cases hplanned : (o.base.db.plans.get k).any (·.status = .planned)
  · obtain ⟨plan, hplan, hstatus⟩ := (Option.any_eq_true ..).mp hplanned
    refine .inl ⟨?_, ?_⟩
    · rw [if_pos hplanned]
      exact Function.update_self ..
    · refine ⟨{ plan with status := .voided }, ?_, rfl⟩
      show (Promotion.cancelPlan o.base.db k).plans.get k = _
      rw [Promotion.cancelPlan, compareAndSet, Table.get_modify_self, hplan, Option.map_some,
        if_pos (of_decide_eq_true hstatus)]
  · refine .inr ?_
    rw [if_neg hplanned]
    exact Function.update_self ..

lemma jobs_cancelled (o : Orders.State) (c k : ℕ) (locked : ℕ → Bool)
    (hc : o.base.commands c = .withdrawing k) :
    let o' := Orders.step o (.promotion (.cancelJobs c locked))
    (∀ c', c' ≠ c → o'.base.commands c' = o.base.commands c') ∧ o'.base.commands c = .idle := by
  simp only [Orders.step, seenHere, Orders.State.withBase, Promotion.step, hc]
  exact ⟨fun c' hc' => Function.update_of_ne hc' .., Function.update_self ..⟩

/-! ### Runs -/

/-- What holds in every state of a careful run. -/
structure Inv (s : State) : Prop where
  steady : Steady s.orders
  linked : ∀ c, (s.commands c).Linked (s.orders.base.commands c)
  stages : ∀ c, StageSound s (s.commands c)

/-- A command is where it was, or it knows what its new stage asks for. -/
def Advances (s s' : State) (c : ℕ) : Prop :=
  s'.commands c = s.commands c ∧ s'.orders.base.commands c = s.orders.base.commands c ∨
    StageSound s' (s'.commands c) ∧ (s'.commands c).Linked (s'.orders.base.commands c)

lemma advances_of_update {c : ℕ} {command : Command} (c' : ℕ)
    (hcommands : s'.commands = Function.update s.commands c command)
    (hbase : ∀ i, i ≠ c → s'.orders.base.commands i = s.orders.base.commands i)
    (hsound : StageSound s' command) (hlinked : command.Linked (s'.orders.base.commands c)) :
    Advances s s' c' := by
  by_cases hc : c' = c
  · subst hc
    refine .inr ?_
    rw [hcommands, Function.update_self]
    exact ⟨hsound, hlinked⟩
  · refine .inl ⟨?_, hbase c' hc⟩
    rw [hcommands, Function.update_of_ne hc]

lemma stageSound_withCommand {command : Command} (i : ℕ) (next : Command)
    (hc : StageSound s command) : StageSound (s.withCommand i next) command := by
  cases command with
  | pending | refused => trivial
  | targeted | applying | applied => exact hc
  | cancelled => exact ⟨hc.closed, hc.plan⟩
  | reading | closing | rechecking => exact ⟨⟨hc.1.closed, hc.1.plan⟩, hc.2⟩

lemma no_job_of_voided_plan {o : Orders.State} (h : Steady o) {k j : ℕ}
    (hk : Voided o.base.db k) {job : ExecutionJob} (hjob : o.base.db.jobs.get j = some job) :
    job.payload.planId ≠ k :=
  noJobs_of_voided h.sound.inv.base.linked h.sound.inv.base.promoted hk j job hjob

lemma readLeg_linked {trades : Table Trade} {opened : List OpenLeg} {legs : List ProposedOrderLeg}
    {base : Promotion.Command} (h : base = .idle) :
    (readLeg trades target opened legs).Linked base := by
  cases legs with
  | nil => exact h
  | cons leg rest =>
    dsimp only [readLeg]
    split <;> exact h

/-- A position of which a close is queued need not be looked at any more. -/
lemma enqueued_sound {leg : OpenLeg} {rest : List OpenLeg}
    (hc : StageSound s (.closing target (leg :: rest)))
    (hclose : leg.2.accountId = target.plan.accountId → ∃ i job, s.closeJobs.get i = some job ∧
      job.accountId = target.plan.accountId ∧ job.ticket = leg.2.ticket) :
    StageSound s (.closing target rest) := by
  refine ⟨hc.1, fun row hrow j p position hj hfilled hposition htrade => ?_⟩
  rcases hc.2 row hrow j p position hj hfilled hposition htrade with
    hclosed | hqueued | ⟨hacc, e, he, haccount, hticket⟩
  · exact .inl hclosed
  · exact .inr (.inl hqueued)
  · rcases List.mem_cons.mp he with rfl | hrest
    · obtain ⟨i, job, hjob, hja, hjt⟩ := hclose (haccount.trans hacc)
      exact .inr (.inl ⟨i, job, hjob, hja.trans hacc.symm, hjt.trans hticket⟩)
    · exact .inr (.inr ⟨hacc, e, hrest, haccount, hticket⟩)

lemma target_sound {c k : ℕ} {plan : SignalExecutionPlan} {rest : List (ℕ × SignalExecutionPlan)}
    (h : targetPlans s c = (k, plan) :: rest) : StageSound s (.targeted ⟨k, plan⟩) := by
  have hmem : (k, plan) ∈ targetPlans s c := by
    rw [h]
    exact List.mem_cons_self
  obtain ⟨hplan, hstatus⟩ := Table.mem_filter.mp hmem
  have hactive := (of_decide_eq_true hstatus).2
  refine ⟨plan, hplan, rfl, ?_, ?_⟩ <;> intro hn <;> rw [hn] at hactive <;> simp at hactive

theorem advances_step (h : Inv s) (ha : Careful s a) (c : ℕ) : Advances s (step s a) c := by
  have he := evolves_step ha
  cases a with
  | orders a =>
    refine .inl ?_
    dsimp only [step]
    split_ifs with hcommand
    · exact ⟨rfl, rfl⟩
    · exact ⟨rfl, congrFun (base_commands s.orders (Bool.eq_false_iff.mpr hcommand)) c⟩
  | createCloseJob | workCloseJob => exact .inl ⟨rfl, rfl⟩
  | expire i =>
    dsimp only [step]
    cases hi : s.commands i with
    | pending =>
      have hlink := h.linked i
      rw [hi] at hlink
      exact advances_of_update c rfl (fun _ _ => rfl) trivial hlink
    | _ => exact .inl ⟨rfl, rfl⟩
  | resolveTargetPlan i =>
    dsimp only [step]
    cases hi : s.commands i with
    | pending =>
      have hlink := h.linked i
      rw [hi] at hlink
      dsimp only [resolveTargetPlan]
      split
      · rename_i htarget
        exact advances_of_update c rfl (fun _ _ => rfl) (target_sound htarget) hlink
      · exact advances_of_update c rfl (fun _ _ => rfl) trivial hlink
    | _ => exact .inl ⟨rfl, rfl⟩
  | applyCommand i =>
    dsimp only [step]
    cases hi : s.commands i with
    | targeted target =>
      have hlink := h.linked i
      have hstage := h.stages i
      rw [hi] at hlink hstage
      obtain ⟨hdb, hother, hstarted⟩ := command_started s.orders i target.planId
        (s.types i = .closeAll) (fun _ => false) hlink
      refine advances_of_update c rfl hother ?_ ?_
      · split_ifs
        · trivial
        · dsimp only [StageSound, State.db, applyCommand, State.withOrders, State.withCommand]
          rw [hdb]
          exact hstage
      · split_ifs with hidle
        · exact hidle
        · exact hstarted.resolve_left hidle
    | _ => exact .inl ⟨rfl, rfl⟩
  | cancelPlan i =>
    dsimp only [step] at he ⊢
    split at he
    · rename_i target k hi hbase
      have hlink := h.linked i
      have hstage := h.stages i
      rw [hi] at hlink hstage
      rw [hbase] at hlink
      have hk : k = target.planId := by
        rcases hlink with hlink | hlink
        · exact Promotion.Command.cancelling.inj hlink
        · cases hlink
      subst hk
      obtain ⟨hother, hcancelled⟩ := plan_cancelled s.orders i target.planId hbase
      refine advances_of_update c rfl hother ?_ ?_
      · split_ifs with hidle
        · obtain ⟨-, hvoided⟩ := hcancelled.resolve_right fun hn => nomatch hidle.symm.trans hn
          exact ⟨.inl hvoided, fun j job hjob hplan =>
            absurd hplan (no_job_of_voided_plan (steady_later h.steady he) hvoided hjob)⟩
        · obtain ⟨plan, hplan, haccount, hstatus⟩ := hstage
          obtain ⟨plan', hplan', haccount', hstatus'⟩ := plan_later he hplan
          exact ⟨plan', hplan', haccount'.trans haccount, hstatus' hstatus⟩
      · split_ifs with hidle
        · exact hidle
        · exact .inr (hcancelled.resolve_left fun hn => hidle hn.1)
    · exact .inl ⟨rfl, rfl⟩
  | cancelPendingOrderJobs i locked =>
    dsimp only [step] at he ⊢
    split at he
    · rename_i target k hi hbase
      have hlink := h.linked i
      have hstage := h.stages i
      rw [hi] at hlink hstage
      rw [hbase] at hlink
      have hk : k = target.planId := by
        rcases hlink with hlink | hlink
        · cases hlink
        · exact Promotion.Command.withdrawing.inj hlink
      subst hk
      obtain ⟨hother, hidle⟩ := jobs_cancelled s.orders i target.planId locked hbase
      have hfree : Unlocked s target.planId locked := ha target (by rw [hi]; rfl)
      exact advances_of_update c rfl hother
        (cancel_sound h.steady hstage hbase hfree he rfl) hidle
    · exact .inl ⟨rfl, rfl⟩
  | openLegs i =>
    dsimp only [step]
    cases hi : s.commands i with
    | cancelled target =>
      have hlink := h.linked i
      have hstage := h.stages i
      rw [hi] at hlink hstage
      refine advances_of_update c rfl (fun _ _ => rfl) ⟨?_, fun leg hleg => .inl ?_⟩ hlink
      · exact stageSound_withCommand i _ hstage
      · obtain ⟨l, hl, hplan⟩ := hleg
        exact ⟨leg, List.mem_map_of_mem (f := Prod.snd) (mem_legsOf.mpr ⟨hl, hplan⟩), rfl⟩
    | _ => exact .inl ⟨rfl, rfl⟩
  | legTrade i =>
    dsimp only [step]
    cases hi : s.commands i with
    | reading target legs opened =>
      have hlink := h.linked i
      have hstage := h.stages i
      rw [hi] at hlink hstage
      refine advances_of_update c rfl (fun _ _ => rfl) ?_ ?_
      · exact stageSound_withCommand i _ (readLeg_sound h.steady hstage)
      · exact readLeg_linked hlink
    | _ => exact .inl ⟨rfl, rfl⟩
  | enqueueClose i =>
    dsimp only [step] at he ⊢
    split at he
    · rename_i target leg rest hi
      have hlink := h.linked i
      have hstage := h.stages i
      rw [hi] at hlink
      have hready : (s.orders.base.env.windowsUsername target.plan.accountId).getD "" ≠ "" ∧
          leg.2.ticket ≠ "" :=
        ha (target, leg) (by rw [hi]; rfl)
      have hlater := stageSound_later h.steady he hstage
      rw [hi] at hlater
      exact advances_of_update c rfl (fun _ _ => rfl)
        (enqueued_sound hlater (closeEnqueued_enqueueClose hready.1 hready.2)) hlink
    · rename_i target hi
      have hlink := h.linked i
      have hstage := h.stages i
      rw [hi] at hlink hstage
      exact advances_of_update c rfl (fun _ _ => rfl)
        (stageSound_withCommand i (.rechecking target) hstage) hlink
    · exact .inl ⟨rfl, rfl⟩
  | recheck i =>
    dsimp only [step]
    cases hi : s.commands i with
    | rechecking target =>
      have hlink := h.linked i
      have hstage := h.stages i
      rw [hi] at hlink hstage
      refine advances_of_update c rfl (fun _ _ => rfl) ?_ ?_
      · split_ifs with hfills
        · trivial
        · exact stageSound_withCommand i _
            (recheck_sound h.steady hstage (Bool.eq_false_iff.mpr hfills))
      · split_ifs
        · exact hlink
        · exact hlink
    | _ => exact .inl ⟨rfl, rfl⟩

theorem inv_step (h : Inv s) (ha : Careful s a) : Inv (step s a) := by
  have he := evolves_step ha
  refine ⟨steady_later h.steady he, fun c => ?_, fun c => ?_⟩
  · rcases advances_step h ha c with ⟨hsame, hbase⟩ | ⟨-, hlinked⟩
    · rw [hsame, hbase]
      exact h.linked c
    · exact hlinked
  · rcases advances_step h ha c with ⟨hsame, -⟩ | ⟨hsound, -⟩
    · rw [hsame]
      exact stageSound_later h.steady he (h.stages c)
    · exact hsound

lemma inv_start (env : Env) (now : Time) (types : ℕ → CommandType) (replies : ℕ → ℕ → Bool) :
    Inv (start env now types replies) :=
  ⟨steady_start env now, fun _ => rfl, fun _ => trivial⟩

/-- Every order of a plan whose command is applied is handled. -/
def AppliedComplete (s : State) : Prop :=
  ∀ c k, s.commands c = .applied k → ∀ j job, s.db.jobs.get j = some job →
    job.payload.planId = k → Handled s j

/-- In the runs whose steps are careful, no order of an applied command is left unmanaged. -/
theorem appliedComplete_of_careful (env : Env) (now : Time) (types : ℕ → CommandType)
    (replies : ℕ → ℕ → Bool) (as : List Action)
    (has : StepsMeet step Careful (start env now types replies) as) (pre : List Action)
    (hpre : pre <+: as) : AppliedComplete (run step (start env now types replies) pre) := by
  obtain ⟨post, rfl⟩ := hpre
  have hinv : Inv (run step (start env now types replies) pre) :=
    run_invariant_of_meets (P := Inv) (fun _ _ h ha => inv_step h ha)
      (inv_start env now types replies) (stepsMeet_append.mp has).1
  intro c k hc j job hjob hplan
  have hstage := hinv.stages c
  rw [hc] at hstage
  exact hstage.2 j job hjob hplan

/-! ### A claim that has not committed -/

def promotedRun : List Action :=
  [.orders (.promotion (.createPlan 1 samplePlan (.planned [("2310", 1 / 100)]))),
    .orders (.promotion (.load 0 1 .demo true)), .orders (.promotion (.validate 0)),
    .orders (.promotion (.readLegs 0)), .orders (.promotion (.commit 0 .done))]

/-- A command finds the plan, cancels its orders and looks for open positions. -/
def commandRun : List Action :=
  [.resolveTargetPlan 0, .applyCommand 0, .cancelPendingOrderJobs 0 fun _ => false, .openLegs 0,
    .legTrade 0, .legTrade 0]

/-- The order is filled and its trade is there before the command. -/
def flattenedRun : List Action :=
  promotedRun ++ [.orders (.lockJob 1), .orders (.claimJob 1 none), .orders (.sendOrder 1),
    .orders (.fillOrder 1 "7001"), .orders (.beginReport 1 true), .orders (.saveReport 1 ""),
    .orders (.ingest 1 false)] ++ commandRun ++ [.enqueueClose 0, .enqueueClose 0, .recheck 0]

/-- The claim of the order has not committed when the command cancels. -/
def racedRun : List Action :=
  promotedRun ++ [.orders (.lockJob 1)] ++ commandRun ++ [.enqueueClose 0, .recheck 0,
    .orders (.claimJob 1 none), .orders (.sendOrder 1), .orders (.fillOrder 1 "7001")]

/-- Every command closes everything and replies to every plan. -/
def sampleStart : State := start sampleEnv 0 (fun _ => .closeAll) fun _ _ => true

instance (s : State) (k : ℕ) (locked : ℕ → Bool) : Decidable (Unlocked s k locked) :=
  inferInstanceAs (Decidable (_ ∧ _))

instance (s : State) (c : ℕ) (locked : ℕ → Bool) :
    Decidable (Careful s (.cancelPendingOrderJobs c locked)) :=
  inferInstanceAs (Decidable (∀ target ∈ (s.commands c).withdraws, Unlocked s target.planId locked))

instance (s : State) (c : ℕ) : Decidable (Careful s (.enqueueClose c)) :=
  inferInstanceAs (Decidable (∀ e ∈ (s.commands c).nextClose,
    (s.orders.base.env.windowsUsername e.1.plan.accountId).getD "" ≠ "" ∧ e.2.2.ticket ≠ ""))

theorem appliedComplete_flattenedRun :
    AppliedComplete (run step sampleStart flattenedRun) ∧
      (run step sampleStart flattenedRun).commands 0 = .applied 1 := by
  refine ⟨appliedComplete_of_careful sampleEnv 0 (fun _ => .closeAll) (fun _ _ => true)
    flattenedRun ?_ flattenedRun (List.prefix_refl _), by decide +kernel⟩
  have hcommit : Promotion.Fresh (run step sampleStart (flattenedRun.take 4)).orders.base
      (.commit 0 .done) := by
    decide +kernel
  have hingest : NotWatched (run step sampleStart (flattenedRun.take 11)) 1 :=
    fun _ c k hc => nomatch hc
  have hfree : Careful (run step sampleStart (flattenedRun.take 14))
      (.cancelPendingOrderJobs 0 fun _ => false) := by
    decide +kernel
  have hqueue : Careful (run step sampleStart (flattenedRun.take 18)) (.enqueueClose 0) := by
    decide +kernel
  have hdone : Careful (run step sampleStart (flattenedRun.take 19)) (.enqueueClose 0) := by
    decide +kernel
  exact ⟨trivial, trivial, trivial, trivial, hcommit, trivial, trivial, trivial, trivial, trivial,
    trivial, hingest, trivial, trivial, hfree, trivial, trivial, trivial, hqueue, hdone, trivial, trivial⟩

/-- The order is filled after the command was applied, and nobody closes its position. -/
theorem appliedComplete_broken : ¬ AppliedComplete (run step sampleStart racedRun) := by
  intro h
  have hjob : ((run step sampleStart racedRun).db.jobs.get 1).map
      (fun job => (job.payload.planId, job.jobType)) = some (1, .placeOrder) := by
    decide +kernel
  obtain ⟨job, hget, heq⟩ := Option.map_eq_some_iff.mp hjob
  obtain ⟨hplan, htype⟩ := Prod.mk.inj heq
  have horder : (run step sampleStart racedRun).orders.orders 1 = .filled 1 := by
    decide +kernel
  have hopen : ((run step sampleStart racedRun).orders.positions.get 1).map (·.closeTime) =
      some none := by
    decide +kernel
  rcases h 0 1 (by decide +kernel) 1 job hget hplan with
    ⟨job', hget', hno⟩ | hdead | ⟨p, position, -, -, i, closeJob, hclose, -⟩
  · rw [hget] at hget'
    cases hget'
    exact hno htype
  · have hover : OrderOver (run step sampleStart racedRun).orders
        ((run step sampleStart racedRun).orders.orders 1) := hdead.isOver
    rw [horder] at hover
    obtain ⟨position, hposition, hclosed⟩ := hover
    rw [hposition] at hopen
    have hnone : position.closeTime = none := Option.some.inj hopen
    rw [hnone] at hclosed
    cases hclosed
  · have hnone : (run step sampleStart racedRun).closeJobs.keys = [] := by
      decide +kernel
    have hmem := Table.mem_keys_of_get hclose
    rw [hnone] at hmem
    cases hmem

end ProviderCommands
end GuvFX
