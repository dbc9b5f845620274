/-
# Which position belongs to which leg

The platform knows a position only by its comment.  Two legs never have the same comment, so that in
every run a position with the comment of a leg is the one that the order of a job of that leg has
opened, unless somebody has opened a position with such a comment elsewhere; and what the trades say
of it has been true of it.
-/
import GuvFX.Execution.OrderMoves

namespace GuvFX
namespace Orders

open Runs Promotion
open Consumer (JobType JobStatus)

/-! ### Comments of legs -/

lemma toList_legComment (k i : ℕ) :
    (legComment k i).toList = "WAY".toList ++ (Nat.toDigits 10 k ++ 'L' :: Nat.toDigits 10 i) := by
  have hdef : legComment k i = "WAY" ++ k.repr ++ "L" ++ i.repr := rfl
  simp only [hdef, String.toList_append, Nat.toList_repr, List.append_assoc]
  rfl

lemma toDigits_injective {m n : ℕ} (h : Nat.toDigits 10 m = Nat.toDigits 10 n) : m = n := by
  calc m = Nat.ofDigitChars 10 (Nat.toDigits 10 m) 0 := Nat.ofDigitChars_ten_toDigits.symm
    _ = Nat.ofDigitChars 10 (Nat.toDigits 10 n) 0 := by rw [h]
    _ = n := Nat.ofDigitChars_ten_toDigits

/-- No two legs have the same comment. -/
theorem legComment_inj {k k' i i' : ℕ} (h : legComment k i = legComment k' i') :
    k = k' ∧ i = i' := by
  have hlist := congrArg String.toList h
  rw [toList_legComment, toList_legComment] at hlist
  have hdigits := List.append_cancel_left hlist
  have hL : ∀ n, 'L' ∉ Nat.toDigits 10 n := by
    intro n hmem
    have hdigit := Nat.isDigit_of_mem_toDigits (b := 10) (by omega) (by omega) hmem
    exact absurd hdigit (by decide)
  obtain ⟨hk, -, hi⟩ := (List.append_cons_inj_of_notMem (hL k) (hL i)).mp hdigits
  exact ⟨toDigits_injective hk, toDigits_injective hi⟩

/-! ### The invariant -/

variable {s : State}

structure Position.Shows (position : Position) (trade : Trade) : Prop where
  accountId : trade.accountId = position.accountId
  ticket : trade.ticket = position.ticket
  comment : trade.comment = position.comment
  volume : trade.volume = position.volume
  closed : trade.closeTime.isSome → position.closeTime.isSome

/-- The order of the job `j` has opened the position. -/
structure Opened (s : State) (p : ℕ) (position : Position) (j : ℕ) : Prop where
  filled : s.orders j = .filled p
  job : ∃ job, s.base.db.jobs.get j = some job ∧ position.comment = job.payload.comment ∧
    position.accountId = job.accountId ∧ position.volume = job.payload.lots

structure Inv (s : State) : Prop where
  base : Promotion.Inv s.base
  orderly : ∀ j, (s.track j).Orderly
  comment : ∀ j job, s.base.db.jobs.get j = some job →
    job.payload.comment = legComment job.payload.planId job.payload.legIndex
  filled : ∀ j p, s.orders j = .filled p →
    ∃ position, s.positions.get p = some position ∧ position.jobId = some j
  opened : ∀ p position j, s.positions.get p = some position → position.jobId = some j →
    Opened s p position j
  trade : ∀ p trade, s.trades.get p = some trade →
    ∃ position, s.positions.get p = some position ∧ position.Shows trade

lemma inv_start (env : Env) (now : Time) : Inv (start env now) where
  base := Promotion.inv_start env now
  orderly := fun _ => ⟨fun _ => ⟨rfl, rfl⟩, (by intro job h; cases h), by intro h; cases h⟩
  comment := by intro j job h; cases h
  filled := by intro j p h; cases h
  opened := by intro p position j h; cases h
  trade := by intro p trade h; cases h

lemma comment_step (h : Inv s) (a : Action) (j : ℕ) (job : ExecutionJob)
    (hjob : (step s a).base.db.jobs.get j = some job) :
    job.payload.comment = legComment job.payload.planId job.payload.legIndex := by
  have hmoves := step_moves s a j
  cases hold : s.base.db.jobs.get j with
  | none =>
    obtain ⟨p, session, e, -, -, -, rfl, -⟩ := hmoves.new hold hjob
    rfl
  | some row =>
    obtain ⟨row', hrow', hpayload, -⟩ := hmoves.kept hold
    have hsame : row' = job := Option.some.inj (hrow'.symm.trans hjob)
    rw [← hsame, hpayload]
    exact h.comment j row hold

lemma filled_step (h : Inv s) (a : Action) (j p : ℕ) (hp : (step s a).orders j = .filled p) :
    ∃ position, (step s a).positions.get p = some position ∧ position.jobId = some j := by
  rcases (step_moves s a j).of_order_filled hp with hold | ⟨hsent, rfl, ticket, rfl⟩
  · obtain ⟨position, hposition, hj⟩ := h.filled j p hold
    obtain ⟨closeTime, hposition', -⟩ := (position_step s a p).kept hposition
    exact ⟨_, hposition', hj⟩
  · obtain ⟨job, hjob⟩ : ∃ job, s.base.db.jobs.get j = some job := by
      cases hjob : s.base.db.jobs.get j with
      | some job => exact ⟨job, rfl⟩
      | none => exact absurd (((h.orderly j).unborn hjob).1.symm.trans hsent) (by simp)
    refine ⟨positionOf job j ticket s.base.now, ?_, rfl⟩
    simp only [step, fillOrder, onJob, hjob, if_pos (show s.orders j = .sent from hsent)]
    rw [Table.get_insert _ s.positions.fresh_not_mem, if_pos rfl]

lemma job_step {j : ℕ} {job : ExecutionJob} (hjob : s.base.db.jobs.get j = some job) (a : Action) :
    ∃ job', (step s a).base.db.jobs.get j = some job' ∧ job'.payload = job.payload ∧
      job'.accountId = job.accountId ∧ job'.jobType = job.jobType :=
  (step_moves s a j).kept hjob

lemma Opened.step {p j : ℕ} {position : Position} (h : Opened s p position j) (a : Action)
    (closeTime : Option Time) : Opened (step s a) p { position with closeTime } j where
  filled := (step_moves s a j).order_filled h.filled
  job := by
    obtain ⟨job, hjob, hcomment, haccount, hvolume⟩ := h.job
    obtain ⟨job', hjob', hpayload, haccount', -⟩ := job_step hjob a
    refine ⟨job', hjob', ?_, ?_, ?_⟩
    · rw [hpayload]; exact hcomment
    · rw [haccount']; exact haccount
    · rw [hpayload]; exact hvolume

lemma opened_step (h : Inv s) (a : Action) (p : ℕ) (position' : Position) (j : ℕ)
    (hposition' : (step s a).positions.get p = some position') (hj : position'.jobId = some j) :
    Opened (step s a) p position' j := by
  have hmoves := position_step s a p
  generalize hold : s.positions.get p = row at hmoves
  generalize hnew : (step s a).positions.get p = row' at hmoves
  rw [hnew] at hposition'
  cases hmoves with
  | stays =>
    exact (h.opened p position' j (hold.trans hposition') hj).step a position'.closeTime
  | filled i job ticket ha hjob hsent horder =>
    cases hposition'
    cases hj
    obtain ⟨job', hjob', hpayload, haccount, -⟩ := job_step hjob a
    exact ⟨horder, job', hjob', by rw [hpayload]; rfl, by rw [haccount]; rfl,
      by rw [hpayload]; rfl⟩
  | elsewhere trade => cases hposition'; cases hj
  | closed position closeTime =>
    cases hposition'
    exact (h.opened p position j hold hj).step a closeTime

lemma Position.Shows.later {position : Position} {trade : Trade} (h : position.Shows trade)
    {closeTime : Option Time} (hclosed : position.closeTime.isSome → closeTime.isSome) :
    Position.Shows { position with closeTime } trade :=
  ⟨h.accountId, h.ticket, h.comment, h.volume, fun hc => hclosed (h.closed hc)⟩

lemma shows_seenTrade (position : Position) (stale : Bool) :
    position.Shows (seenTrade position stale) where
  accountId := rfl
  ticket := rfl
  comment := rfl
  volume := rfl
  closed hc := by
    cases stale with
    | true => cases hc
    | false => exact hc

lemma get_upsertTrade_of_ne {trades : Table Trade} {p q : ℕ} {seen : Trade} (hpq : p ≠ q) :
    (upsertTrade trades q seen).get p = trades.get p := by
  unfold upsertTrade
  cases hrow : trades.get q with
  | none => rw [Table.get_insert _ (Table.get_eq_none_iff.mp hrow), if_neg hpq]
  | some row => exact Table.get_modify_of_ne _ _ hpq

lemma shows_upsertTrade {trades : Table Trade} {p : ℕ} {position : Position} {seen trade : Trade}
    (hold : ∀ row, trades.get p = some row → position.Shows row) (hseen : position.Shows seen)
    (h : (upsertTrade trades p seen).get p = some trade) : position.Shows trade := by
  unfold upsertTrade at h
  cases hrow : trades.get p with
  | none =>
    rw [hrow] at h
    rw [Table.get_insert _ (Table.get_eq_none_iff.mp hrow), if_pos rfl] at h
    cases h
    exact hseen
  | some row =>
    rw [hrow] at h
    dsimp only at h
    rw [Table.get_modify_self, hrow] at h
    cases h
    have hshows := hold row hrow
    refine ⟨hshows.accountId, hshows.ticket, hshows.comment, hshows.volume, fun hc => ?_⟩
    rw [Option.isSome_or, Bool.or_eq_true] at hc
    rcases hc with hc | hc
    · exact hseen.closed hc
    · exact hshows.closed hc

lemma trade_ingest (h : Inv s) (q : ℕ) (stale : Bool) (p : ℕ) (trade : Trade)
    (htrade : (ingest s q stale).trades.get p = some trade) :
    ∃ position, (ingest s q stale).positions.get p = some position ∧ position.Shows trade := by
  unfold ingest at htrade ⊢
  cases hposition : s.positions.get q with
  | none => rw [hposition] at htrade; exact h.trade p trade htrade
  | some position =>
    rw [hposition] at htrade
    dsimp only at htrade ⊢
    by_cases hpq : p = q
    · subst hpq
      refine ⟨position, hposition, shows_upsertTrade ?_ (shows_seenTrade position stale) htrade⟩
      intro row hrow
      obtain ⟨position', hposition', hshows⟩ := h.trade p row hrow
      rw [hposition] at hposition'
      cases hposition'
      exact hshows
    · rw [get_upsertTrade_of_ne hpq] at htrade
      exact h.trade p trade htrade

lemma trade_step (h : Inv s) (a : Action) (p : ℕ) (trade : Trade)
    (htrade : (step s a).trades.get p = some trade) :
    ∃ position, (step s a).positions.get p = some position ∧ position.Shows trade := by
  by_cases ha : a.actor = .sync
  · cases a <;> cases ha
    exact trade_ingest h _ _ p trade htrade
  · rw [(frame s a).trades ha] at htrade
    obtain ⟨position, hposition, hshows⟩ := h.trade p trade htrade
    obtain ⟨closeTime, hposition', hclosed⟩ := (position_step s a p).kept hposition
    exact ⟨_, hposition', hshows.later hclosed⟩

theorem inv_step (h : Inv s) (a : Action) : Inv (step s a) where
  base := base_inv_step h.base a
  orderly j := (step_moves s a j).orderly (h.orderly j)
  comment := comment_step h a
  filled := filled_step h a
  opened := opened_step h a
  trade := trade_step h a

/-! ### One job for each leg -/

/-- No commit gives a second job to a leg. -/
def FreeCommits (s : State) : Action → Prop
  | .promotion a => FreeLegs s.base a
  | _ => True

lemma base_free {a : Action} (ha : FreeCommits s a) :
    (step s a).base = s.base ∨ ∃ b, FreeLegs s.base b ∧ (step s a).base = Promotion.step s.base b := by
  have hbase := base_step s a
  generalize (step s a).base = base' at hbase
  cases hbase with
  | stays => exact .inl rfl
  | saves _ j status e t => exact .inr ⟨.workJob j status e t, trivial, rfl⟩
  | frees r k => exact .inr ⟨.closePlan k, trivial, rfl⟩
  | promotes b b' hb =>
    refine .inr ⟨b', ?_, rfl⟩
    cases b <;> simp only [seenHere, Option.some.injEq, reduceCtorEq] at hb <;> subst hb <;>
      exact ha

lemma oneJob_step (h : Promotion.Inv s.base) (hone : OneJobPerLeg s.base.db) {a : Action}
    (ha : FreeCommits s a) : OneJobPerLeg (step s a).base.db := by
  rcases base_free ha with heq | ⟨b, hb, heq⟩
  · rw [heq]; exact hone
  · rw [heq]; exact oneJobPerLeg_step h hone hb

lemma mem_plans_step (a : Action) {k : ℕ}
    (hk : k ∈ s.base.db.plans.keys) : k ∈ (step s a).base.db.plans.keys := by
  have hbase := base_step s a
  generalize (step s a).base = base' at hbase
  have hkeep : ∀ b, k ∈ (Promotion.step s.base b).db.plans.keys := by
    intro b
    obtain ⟨plan, hplan⟩ := Table.get_of_mem_keys hk
    have hmoves := plan_step s.base b k
    rw [hplan] at hmoves
    generalize hnew : (Promotion.step s.base b).db.plans.get k = row' at hmoves
    cases hmoves <;> exact Table.mem_keys_of_get hnew
  cases hbase with
  | stays => exact hk
  | promotes | saves | frees => exact hkeep _

lemma leg_kept (h : Promotion.Inv s.base) {a : Action} (ha : FreeCommits s a) {l : ℕ}
    {leg : ProposedOrderLeg} (hleg : s.base.db.legs.get l = some leg) :
    ∃ executionJobId status,
      (step s a).base.db.legs.get l = some { leg with executionJobId, status } ∧
        (leg.executionJobId ≠ none →
          executionJobId = leg.executionJobId ∧ status = leg.status) := by
  rcases base_free ha with heq | ⟨b, hb, heq⟩
  · rw [heq]
    exact ⟨leg.executionJobId, leg.status, hleg, fun _ => ⟨rfl, rfl⟩⟩
  · rw [heq]
    exact leg_step h hb hleg

lemma of_leg_kept (h : Promotion.Inv s.base) {a : Action} (ha : FreeCommits s a) {k l : ℕ}
    {leg' : ProposedOrderLeg} (hk : k ∈ s.base.db.plans.keys)
    (hleg' : (step s a).base.db.legs.get l = some leg') (hplan : leg'.planId = k) :
    ∃ leg, s.base.db.legs.get l = some leg ∧ leg.planId = k := by
  rcases base_free ha with heq | ⟨b, -, heq⟩
  · rw [heq] at hleg'
    exact ⟨leg', hleg', hplan⟩
  · rw [heq] at hleg'
    exact of_leg_step h b hk hleg' hplan

/-! ### Comments of positions -/

/-- Nobody else has opened a position with the comment of a leg. -/
def Foreign (s : State) : Prop :=
  ∀ p position, s.positions.get p = some position → position.jobId = none →
    ∀ k i, position.comment ≠ legComment k i

lemma foreign_step (h : Foreign s) {a : Action}
    (ha : ∀ trade, a = .openElsewhere trade → ∀ k i, trade.comment ≠ legComment k i) :
    Foreign (step s a) := by
  intro p position' hposition' hid k i
  have hmoves := position_step s a p
  generalize hold : s.positions.get p = row at hmoves
  rw [hposition'] at hmoves
  cases hmoves with
  | stays => exact h p position' hold hid k i
  | filled => cases hid
  | elsewhere trade heq => exact ha trade heq k i
  | closed position closeTime => exact h p position hold hid k i

lemma Inv.filled_of_comment (h : Inv s) (hone : OneJobPerLeg s.base.db) (hforeign : Foreign s)
    {j p : ℕ} {position : Position} (hposition : s.positions.get p = some position)
    {job : ExecutionJob} (hjob : s.base.db.jobs.get j = some job)
    (hcomment : position.comment = legComment job.payload.planId job.payload.legIndex) :
    s.orders j = .filled p := by
  cases hid : position.jobId with
  | none => exact absurd hcomment (hforeign p position hposition hid _ _)
  | some j' =>
    have hopened := h.opened p position j' hposition hid
    obtain ⟨job', hjob', hcomment', -, -⟩ := hopened.job
    have hsame : legComment job'.payload.planId job'.payload.legIndex =
        legComment job.payload.planId job.payload.legIndex := by
      rw [← h.comment j' job' hjob', ← hcomment', hcomment]
    obtain ⟨hp, hi⟩ := legComment_inj hsame
    have heq : j' = j := hone j' j job' job hjob' hjob hp hi
    rw [← heq]
    exact hopened.filled

/-! ### Accounts -/

/-- The accounts of the sessions and of the jobs are those of their plans. -/
structure Accounts (s : State) : Prop where
  session : SessionAccounts s.base
  job : ∀ j job, s.base.db.jobs.get j = some job → ∀ plan,
    s.base.db.plans.get job.payload.planId = some plan → job.accountId = plan.accountId

lemma accounts_start (env : Env) (now : Time) : Accounts (start env now) where
  session := by intro p session h; cases h
  job := by intro j job h; cases h

lemma plan_kept (a : Action) {k : ℕ} {plan : SignalExecutionPlan}
    (hplan : s.base.db.plans.get k = some plan) :
    ∃ plan', (step s a).base.db.plans.get k = some plan' ∧ plan'.accountId = plan.accountId := by
  have hbase := base_step s a
  generalize (step s a).base = base' at hbase
  cases hbase with
  | stays => exact ⟨plan, hplan, rfl⟩
  | promotes | saves | frees => exact plan_account_step _ hplan

lemma accounts_step (h : Inv s) (hacc : Accounts s) (a : Action) : Accounts (step s a) where
  session := by
    have hbase := base_step s a
    generalize (step s a).base = base' at hbase
    cases hbase with
    | stays => exact hacc.session
    | promotes | saves | frees => exact sessionAccounts_step h.base hacc.session _
  job := by
    intro j job hjob plan' hplan'
    -- the plan of a job was there before
    have hbefore : ∀ k, k ∈ s.base.db.plans.keys → ∀ plan₁,
        (step s a).base.db.plans.get k = some plan₁ →
          ∃ plan, s.base.db.plans.get k = some plan ∧ plan₁.accountId = plan.accountId := by
      intro k hk plan₁ hplan₁
      obtain ⟨plan, hplan⟩ := Table.get_of_mem_keys hk
      obtain ⟨plan₂, hplan₂, haccount⟩ := plan_kept a hplan
      rw [hplan₁] at hplan₂
      cases hplan₂
      exact ⟨plan, hplan, haccount⟩
    have hmoves := step_moves s a j
    cases hold : s.base.db.jobs.get j with
    | none =>
      obtain ⟨p, session, e, -, hp, -, rfl, -⟩ := hmoves.new hold hjob
      have hsession : (s.base.promoters p).session? = some session := by rw [hp]; rfl
      obtain ⟨plan, hplan, haccount⟩ :=
        hbefore _ (h.base.session p session hsession).plan plan' hplan'
      rw [haccount]
      exact hacc.session p session hsession plan hplan
    | some row =>
      obtain ⟨row', hrow', hpayload, haccount, -⟩ := hmoves.kept hold
      have hsame : row' = job := Option.some.inj (hrow'.symm.trans hjob)
      subst hsame
      rw [hpayload] at hplan'
      obtain ⟨l, leg, hleg, hplan, -, -⟩ := h.base.linked.jobLeg j row hold
      obtain ⟨plan, hget, hsame⟩ :=
        hbefore _ (hplan ▸ h.base.linked.legPlan l leg hleg) plan' hplan'
      rw [haccount, hsame]
      exact hacc.job j row hold plan hget

end Orders
end GuvFX
