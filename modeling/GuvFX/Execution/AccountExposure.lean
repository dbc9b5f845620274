/-
# The exposure of an account

What an account holds moves between its two halves.  When the trade of a promoted leg arrives, the
leg is in flight no more, and when the trade closes it is so again until the plan is closed; neither
makes the sum larger.  Only a promotion does, and a trade that arrives for a plan that is promoted no
more.

A promotion has been checked against what was there when it was validated.  Two that are validated
before either of them commits both pass, and together they may exceed the cap.  In the runs in which
nothing else adds to the account between the check of a promotion and its commit, the exposure never
exceeds the cap.
-/
import GuvFX.Execution.OrderSizes
import GuvFX.Execution.RiskControls

namespace GuvFX
namespace RiskControls

open Runs Promotion Checks Orders
open Consumer (JobType JobStatus)

variable {o o' : Orders.State} {a : Orders.Action} {accountId : ℕ} {e : Option ℕ}

/-! ### Rows that count -/

lemma isPromotedLeg_iff {db : Db} {leg : ProposedOrderLeg} :
    isPromotedLeg db accountId "" leg = true ↔ ∃ plan, db.plans.get leg.planId = some plan ∧
      plan.accountId = accountId ∧ plan.status = .promoted := by
  rw [isPromotedLeg, Option.any_eq_true]
  simp

lemma isOpenTrade_iff {trade : Trade} : isOpenTrade accountId "" trade = true ↔
    trade.accountId = accountId ∧ trade.closeTime = none := by
  simp [isOpenTrade]

lemma openComment_iff {trades : Table Trade} {comment : String} (hne : comment ≠ "") :
    openComment trades accountId "" comment = true ↔
      ∃ p trade, trades.get p = some trade ∧ isOpenTrade accountId "" trade = true ∧
        trade.comment = comment := by
  rw [openComment]
  constructor
  · intro h
    obtain ⟨⟨p, trade⟩, hfirst⟩ := Option.isSome_iff_exists.mp h
    have hrow := of_decide_eq_true (Table.of_first hfirst)
    exact ⟨p, trade, Table.get_of_first hfirst, hrow.1, hrow.2.2⟩
  · rintro ⟨p, trade, hget, hopen, rfl⟩
    rw [Table.first, List.find?_isSome]
    exact ⟨(p, trade), Table.mem_rows_of_get hget, by simp [hopen, hne]⟩

lemma legComment_ne_empty (k i : ℕ) : legComment k i ≠ "" := by
  intro h
  have hlist := congrArg String.toList h
  rw [toList_legComment] at hlist
  exact absurd hlist (by simp)

variable {l k p : ℕ}

lemma pos_of_promoted (h : Settled o) {leg : ProposedOrderLeg}
    (hleg : o.base.db.legs.get l = some leg)
    (hp : isPromotedLeg o.base.db accountId "" leg = true) : 0 < leg.lotSize := by
  obtain ⟨plan, hplan, -, hstatus⟩ := isPromotedLeg_iff.mp hp
  exact h.sizes.leg l leg hleg (h.whole.promoted leg.planId plan hplan (.inl hstatus) l leg hleg rfl)

lemma activeLegLots_cases (o : Orders.State) (accountId : ℕ) (e : Option ℕ)
    (leg : ProposedOrderLeg) :
    activeLegLots o accountId "" e leg = 0 ∨
      activeLegLots o accountId "" e leg = leg.lotSize ∧
        isPromotedLeg o.base.db accountId "" leg = true ∧ e ≠ some leg.planId ∧
          openComment o.trades accountId "" (legComment leg.planId leg.legIndex) = false := by
  unfold activeLegLots
  split_ifs with hactive
  · exact .inr ⟨rfl, hactive⟩
  · exact .inl rfl

lemma activeLegLots_nonneg (h : Settled o) {leg : ProposedOrderLeg}
    (hleg : o.base.db.legs.get l = some leg) : 0 ≤ activeLegLots o accountId "" e leg := by
  rcases activeLegLots_cases o accountId e leg with hzero | ⟨hlot, hp, -⟩
  · rw [hzero]
  · rw [hlot]
    exact (pos_of_promoted h hleg hp).le

lemma worth_nonneg (h : Settled o) (l : ℕ) :
    0 ≤ o.base.db.legs.worth (fun _ => activeLegLots o accountId "" e) l := by
  cases hleg : o.base.db.legs.get l with
  | none => rw [Table.worth_of_get_none hleg]
  | some leg =>
    rw [Table.worth_of_get hleg]
    exact activeLegLots_nonneg h hleg

/-! ### Steps that add nothing -/

/-- A step adds nothing to the account, or it promotes a promoted plan again. -/
def Quiet (o : Orders.State) (accountId : ℕ) (a : Orders.Action) : Prop :=
  addsTo o a = some accountId → ∃ p session plan, a = .promotion (.commit p .done) ∧
    o.base.promoters p = .ready session ∧ o.base.db.plans.get session.planId = some plan ∧
      plan.status = .promoted

lemma promoted_or_commit {plan' : SignalExecutionPlan}
    (hplan' : (Orders.step o a).base.db.plans.get k = some plan')
    (hstatus : plan'.status = .promoted) :
    (∃ plan, o.base.db.plans.get k = some plan ∧ plan.accountId = plan'.accountId ∧
        plan.status = .promoted) ∨
      ∃ p session plan, a = .promotion (.commit p .done) ∧ o.base.promoters p = .ready session ∧
        session.planId = k ∧ o.base.db.plans.get k = some plan ∧
          plan.accountId = plan'.accountId := by
  -- a step of the promotions that is no commit, or is the one of the step
  have hbase : ∀ b, (∀ p, b = .commit p .done → a = .promotion (.commit p .done)) →
      (Promotion.step o.base b).db.plans.get k = some plan' →
        (∃ plan, o.base.db.plans.get k = some plan ∧ plan.accountId = plan'.accountId ∧
            plan.status = .promoted) ∨
          ∃ p session plan, a = .promotion (.commit p .done) ∧
            o.base.promoters p = .ready session ∧ session.planId = k ∧
              o.base.db.plans.get k = some plan ∧ plan.accountId = plan'.accountId := by
    intro b hcommit hget
    have hmoves := plan_step o.base b k
    rw [hget] at hmoves
    generalize hrow : o.base.db.plans.get k = row at hmoves
    cases hmoves with
    | stays => exact .inl ⟨plan', rfl, rfl, hstatus⟩
    | created _ hno => exact absurd hstatus hno
    | voided | closed => cases hstatus
    | promoted p session plan hb hp hk =>
      exact .inr ⟨p, session, plan, hcommit p hb, hp, hk, rfl, rfl⟩
  have hstep := base_step o a
  generalize (Orders.step o a).base = base' at hstep hplan'
  cases hstep with
  | stays => exact .inl ⟨plan', hplan', rfl, hstatus⟩
  | saves _ j status text t =>
    exact hbase (.workJob j status text t) (fun p hp => nomatch hp) hplan'
  | frees r i => exact hbase (.closePlan i) (fun p hp => nomatch hp) hplan'
  | promotes b b' hb =>
    refine hbase b' (fun p hp => ?_) hplan'
    subst hp
    cases b <;> simp only [seenHere, Option.some.injEq, reduceCtorEq] at hb
    rw [hb]

lemma promoted_before (h : Settled o) (hq : Quiet o accountId a) {plan' : SignalExecutionPlan}
    (hplan' : (Orders.step o a).base.db.plans.get k = some plan')
    (haccount : plan'.accountId = accountId) (hstatus : plan'.status = .promoted) :
    ∃ plan, o.base.db.plans.get k = some plan ∧ plan.accountId = accountId ∧
      plan.status = .promoted := by
  rcases promoted_or_commit hplan' hstatus with
    ⟨plan, hplan, hsame, hpromoted⟩ | ⟨p, session, plan, ha, hp, rfl, hplan, hsame⟩
  · exact ⟨plan, hplan, hsame.trans haccount, hpromoted⟩
  · have hsession : (o.base.promoters p).session? = some session := by rw [hp]; rfl
    have hadds : addsTo o a = some accountId := by
      subst ha
      simp only [addsTo, hp]
      rw [h.accounts.session p session hsession plan hplan, hsame, haccount]
    obtain ⟨p₀, session₀, plan₀, ha₀, hp₀, hplan₀, hstatus₀⟩ := hq hadds
    rw [ha] at ha₀
    cases ha₀
    rw [hp] at hp₀
    cases hp₀
    rw [hplan] at hplan₀
    cases hplan₀
    exact ⟨plan, hplan, hsame.trans haccount, hstatus₀⟩

lemma activeSignalLots_step (h : Settled o) (ha : Sane o a) (hq : Quiet o accountId a)
    (htrades : (Orders.step o a).trades = o.trades) :
    activeSignalLots (Orders.step o a) accountId "" e ≤ activeSignalLots o accountId "" e := by
  refine Table.total_le_total fun l => ?_
  cases hleg' : (Orders.step o a).base.db.legs.get l with
  | none =>
    rw [Table.worth_of_get_none hleg']
    exact worth_nonneg h l
  | some leg' =>
    rw [Table.worth_of_get hleg']
    rcases activeLegLots_cases (Orders.step o a) accountId e leg' with
      hzero | ⟨hlot, hp, hne, hclosed⟩
    · rw [hzero]
      exact worth_nonneg h l
    · obtain ⟨plan', hplan', haccount', hstatus'⟩ := isPromotedLeg_iff.mp hp
      obtain ⟨plan, hplan, haccount, hstatus⟩ := promoted_before h hq hplan' haccount' hstatus'
      obtain ⟨leg, hleg, hk, hindex, hsize, -⟩ := leg_of_step h.inv.base ha.freeCommits
        (Table.mem_keys_of_get hplan) hleg' rfl
      have hactive : activeLegLots o accountId "" e leg = leg.lotSize := by
        unfold activeLegLots
        refine if_pos ⟨isPromotedLeg_iff.mpr ⟨plan, by rw [hk]; exact hplan, haccount, hstatus⟩, ?_, ?_⟩
        · rw [hk]; exact hne
        · rw [hk, ← hindex, ← htrades]; exact hclosed
      rw [Table.worth_of_get hleg, hactive, hlot, hsize]

/-! ### The arrival of a trade -/

lemma exposureBut_le_of_trades (c : ℚ)
    (hopen : openPositionLots o'.trades accountId "" ≤ openPositionLots o.trades accountId "" + c)
    (hactive : activeSignalLots o' accountId "" e + c ≤ activeSignalLots o accountId "" e) :
    exposureBut o' accountId "" e ≤ exposureBut o accountId "" e := by
  unfold exposureBut
  linarith

lemma openComment_of_ne {trades trades' : Table Trade} {comment : String}
    (hcomment : comment ≠ "") (hne : ∀ q, q ≠ p → trades'.get q = trades.get q)
    (hp : ∀ trade', trades'.get p = some trade' → isOpenTrade accountId "" trade' = true →
      trade'.comment ≠ comment) (h : openComment trades' accountId "" comment = true) :
    openComment trades accountId "" comment = true := by
  obtain ⟨q, trade, hget, hopen, hsame⟩ := (openComment_iff hcomment).mp h
  by_cases hq : q = p
  · subst hq
    exact absurd hsame (hp trade hget hopen)
  · exact (openComment_iff hcomment).mpr ⟨q, trade, hne q hq ▸ hget, hopen, hsame⟩

lemma activeLegLots_le (h : Settled o) (hbase : o'.base = o.base) {leg : ProposedOrderLeg}
    (hleg : o.base.db.legs.get l = some leg)
    (hcomment : openComment o.trades accountId "" (legComment leg.planId leg.legIndex) = true →
      openComment o'.trades accountId "" (legComment leg.planId leg.legIndex) = true) :
    activeLegLots o' accountId "" e leg ≤ activeLegLots o accountId "" e leg := by
  rcases activeLegLots_cases o' accountId e leg with hzero | ⟨hlot, hp, hne, hclosed⟩
  · rw [hzero]
    exact activeLegLots_nonneg h hleg
  · have hclosed' : openComment o.trades accountId "" (legComment leg.planId leg.legIndex) =
        false := by
      refine Bool.eq_false_iff.mpr fun hopen => ?_
      rw [hcomment hopen] at hclosed
      cases hclosed
    have hactive : activeLegLots o accountId "" e leg = leg.lotSize := by
      unfold activeLegLots
      exact if_pos ⟨by rw [← hbase]; exact hp, hne, hclosed'⟩
    rw [hlot, hactive]

lemma activeSignalLots_le (h : Settled o) (hbase : o'.base = o.base)
    (hkept : ∀ comment, comment ≠ "" → openComment o.trades accountId "" comment = true →
      openComment o'.trades accountId "" comment = true) :
    activeSignalLots o' accountId "" e ≤ activeSignalLots o accountId "" e := by
  unfold activeSignalLots
  rw [hbase]
  refine Table.total_le_total fun l => ?_
  cases hleg : o.base.db.legs.get l with
  | none => rw [Table.worth_of_get_none hleg, Table.worth_of_get_none hleg]
  | some leg =>
    rw [Table.worth_of_get hleg, Table.worth_of_get hleg]
    exact activeLegLots_le h hbase hleg (hkept _ (legComment_ne_empty _ _))

lemma activeSignalLots_le_add (h : Settled o) (hbase : o'.base = o.base) {leg : ProposedOrderLeg}
    (hleg : o.base.db.legs.get l = some leg) {c : ℚ}
    (hl : activeLegLots o' accountId "" e leg ≤ activeLegLots o accountId "" e leg + c)
    (hkept : ∀ comment, comment ≠ "" → comment ≠ legComment leg.planId leg.legIndex →
      openComment o.trades accountId "" comment = true →
        openComment o'.trades accountId "" comment = true) :
    activeSignalLots o' accountId "" e ≤ activeSignalLots o accountId "" e + c := by
  unfold activeSignalLots
  rw [hbase]
  refine Table.total_le_total_add l ?_ fun i hi => ?_
  · rw [Table.worth_of_get hleg, Table.worth_of_get hleg]
    exact hl
  · cases hleg' : o.base.db.legs.get i with
    | none => rw [Table.worth_of_get_none hleg', Table.worth_of_get_none hleg']
    | some leg' =>
      rw [Table.worth_of_get hleg', Table.worth_of_get hleg']
      refine activeLegLots_le h hbase hleg' (hkept _ (legComment_ne_empty _ _) fun hsame => hi ?_)
      obtain ⟨hk, hindex⟩ := legComment_inj hsame
      exact h.inv.base.linked.legKey i l leg' leg hleg' hleg hk hindex

lemma openPositionLots_le {trades trades' : Table Trade} {c : ℚ}
    (hne : ∀ q, q ≠ p → trades'.get q = trades.get q)
    (hp : trades'.worth (fun _ trade => if isOpenTrade accountId "" trade then trade.volume else 0) p ≤
      trades.worth (fun _ trade => if isOpenTrade accountId "" trade then trade.volume else 0) p + c)
    :
    openPositionLots trades' accountId "" ≤ openPositionLots trades accountId "" + c := by
  refine Table.total_le_total_add p hp fun q hq => ?_
  rw [Table.worth, Table.worth, hne q hq]

lemma leg_of_trade (h : Settled o) {trade : Trade} (htrade : o.trades.get p = some trade) :
    (∃ l leg, o.base.db.legs.get l = some leg ∧ 0 < leg.lotSize ∧
        trade.comment = legComment leg.planId leg.legIndex ∧ trade.volume = leg.lotSize) ∨
      (∀ k i, trade.comment ≠ legComment k i) ∧ 0 ≤ trade.volume := by
  obtain ⟨position, hposition, hshows⟩ := h.inv.trade p trade htrade
  rw [hshows.comment, hshows.volume]
  exact leg_of_position h hposition

lemma exposureBut_insert (h : Settled o) {stale : Bool} {position : Position}
    (hposition : o.positions.get p = some position) (hnone : o.trades.get p = none)
    (hq : addsTo o (.ingest p stale) ≠ some accountId)
    (he : ∀ k, e = some k → ∀ plan, o.base.db.plans.get k = some plan → plan.status ≠ .promoted)
    (hbase : o'.base = o.base)
    (htrades : o'.trades = o.trades.insert p (seenTrade position stale)) :
    exposureBut o' accountId "" e ≤ exposureBut o accountId "" e := by
  have hp : p ∉ o.trades.keys := Table.get_eq_none_iff.mp hnone
  have hget : o'.trades.get p = some (seenTrade position stale) := by
    rw [htrades, Table.get_insert _ hp, if_pos rfl]
  have hne : ∀ q, q ≠ p → o'.trades.get q = o.trades.get q := by
    intro q hqp
    rw [htrades, Table.get_insert _ hp, if_neg hqp]
  have hkept : ∀ comment, comment ≠ "" → openComment o.trades accountId "" comment = true →
      openComment o'.trades accountId "" comment = true := by
    intro comment hcomment
    refine openComment_of_ne hcomment (fun q hqp => (hne q hqp).symm) fun trade htrade => ?_
    rw [hnone] at htrade
    cases htrade
  have hshows := shows_seenTrade position stale
  cases hopen : isOpenTrade accountId "" (seenTrade position stale) with
  | false =>
    refine exposureBut_le_of_trades 0 (openPositionLots_le hne ?_) ?_
    · rw [Table.worth_of_get hget, Table.worth_of_get_none hnone, hopen]
      simp
    · rw [add_zero]
      exact activeSignalLots_le h hbase hkept
  | true =>
    obtain ⟨haccount, hclose⟩ := isOpenTrade_iff.mp hopen
    have hback : isBacked o.base.db position = true := by
      by_contra hno
      refine hq ?_
      simp only [addsTo, hposition]
      rw [if_pos ⟨hnone, hclose, Bool.eq_false_iff.mpr hno⟩, ← hshows.accountId, haccount]
    obtain ⟨⟨l, leg⟩, hfirst⟩ := Option.isSome_iff_exists.mp hback
    have hleg := Table.get_of_first hfirst
    obtain ⟨hpromoted, hcomment⟩ := of_decide_eq_true (Table.of_first hfirst)
    rw [← hshows.accountId, haccount] at hpromoted
    have hvolume : position.volume = leg.lotSize := by
      rcases leg_of_position h hposition with ⟨i, leg', hleg', -, hcomment', hvolume⟩ | ⟨hforeign, -⟩
      · obtain ⟨hk, hindex⟩ := legComment_inj (hcomment.symm.trans hcomment')
        have hi := h.inv.base.linked.legKey l i leg leg' hleg hleg' hk hindex
        subst hi
        rw [hleg] at hleg'
        cases hleg'
        exact hvolume
      · exact absurd hcomment (hforeign _ _)
    have hother : e ≠ some leg.planId := by
      intro hk
      obtain ⟨plan, hplan, -, hstatus⟩ := isPromotedLeg_iff.mp hpromoted
      exact he leg.planId hk plan hplan hstatus
    -- the leg was in flight, since no other trade has its comment
    have hbefore : openComment o.trades accountId "" (legComment leg.planId leg.legIndex) = false := by
      refine Bool.eq_false_iff.mpr fun hc => ?_
      obtain ⟨q, trade, htrade, -, hsame⟩ := (openComment_iff (legComment_ne_empty _ _)).mp hc
      obtain ⟨position', hposition', hshows'⟩ := h.inv.trade q trade htrade
      have hqp := position_unique h hposition hposition' hcomment (hshows'.comment.symm.trans hsame)
      subst hqp
      rw [hnone] at htrade
      cases htrade
    have hafter : openComment o'.trades accountId "" (legComment leg.planId leg.legIndex) = true :=
      (openComment_iff (legComment_ne_empty _ _)).mpr
        ⟨p, _, hget, hopen, hshows.comment.trans hcomment⟩
    refine exposureBut_le_of_trades leg.lotSize (openPositionLots_le hne ?_) ?_
    · rw [Table.worth_of_get hget, Table.worth_of_get_none hnone, hopen, if_pos rfl, zero_add,
        hshows.volume, hvolume]
    · have hle : activeSignalLots o' accountId "" e ≤
          activeSignalLots o accountId "" e + -leg.lotSize := by
        refine activeSignalLots_le_add h hbase hleg ?_ fun comment hc _ => hkept comment hc
        have hold : activeLegLots o accountId "" e leg = leg.lotSize :=
          if_pos ⟨hpromoted, hother, hbefore⟩
        have hnew : activeLegLots o' accountId "" e leg = 0 :=
          if_neg fun hn => by rw [hafter] at hn; exact absurd hn.2.2 (by decide)
        rw [hold, hnew]
        linarith
      linarith

/-- A later sight of a position: one that is closed puts its leg back into flight. -/
lemma exposureBut_modify (h : Settled o) {row : Trade} {closeTime : Option Time}
    (hrow : o.trades.get p = some row) (hclosed : row.closeTime.isSome → closeTime.isSome)
    (hbase : o'.base = o.base) (hget : o'.trades.get p = some { row with closeTime })
    (hne : ∀ q, q ≠ p → o'.trades.get q = o.trades.get q) :
    exposureBut o' accountId "" e ≤ exposureBut o accountId "" e := by
  -- the comment of the trade apart, open comments stay open
  have hkept : ∀ comment, comment ≠ "" → comment ≠ row.comment →
      openComment o.trades accountId "" comment = true →
        openComment o'.trades accountId "" comment = true := by
    intro comment hcomment hother
    refine openComment_of_ne hcomment (fun q hqp => (hne q hqp).symm) fun trade htrade _ => ?_
    rw [hrow] at htrade
    cases htrade
    exact hother.symm
  cases hopen : isOpenTrade accountId "" row with
  | false =>
    have hopen' : isOpenTrade accountId "" { row with closeTime } = false := by
      refine Bool.eq_false_iff.mpr fun hn => ?_
      obtain ⟨haccount, hnone⟩ := isOpenTrade_iff.mp hn
      have hrowopen : isOpenTrade accountId "" row = true := by
        refine isOpenTrade_iff.mpr ⟨haccount, ?_⟩
        cases hc : row.closeTime with
        | none => rfl
        | some t =>
          have hsome := hclosed (by rw [hc]; rfl)
          rw [show closeTime = none from hnone] at hsome
          cases hsome
      rw [hopen] at hrowopen
      cases hrowopen
    refine exposureBut_le_of_trades 0 (openPositionLots_le hne ?_) ?_
    · rw [Table.worth_of_get hget, Table.worth_of_get hrow, hopen, hopen']
      simp
    · rw [add_zero]
      refine activeSignalLots_le h hbase fun comment hcomment => ?_
      refine openComment_of_ne hcomment (fun q hqp => (hne q hqp).symm) fun trade htrade hn => ?_
      rw [hrow] at htrade
      cases htrade
      rw [hopen] at hn
      cases hn
  | true =>
    obtain ⟨haccount, -⟩ := isOpenTrade_iff.mp hopen
    cases closeTime with
    | none =>
      have hopen' : isOpenTrade accountId "" { row with closeTime := none } = true :=
        isOpenTrade_iff.mpr ⟨haccount, rfl⟩
      refine exposureBut_le_of_trades 0 (openPositionLots_le hne ?_) ?_
      · rw [Table.worth_of_get hget, Table.worth_of_get hrow, hopen, hopen']
        simp
      · rw [add_zero]
        refine activeSignalLots_le h hbase fun comment hcomment hc => ?_
        by_cases hsame : comment = row.comment
        · exact (openComment_iff hcomment).mpr ⟨p, _, hget, hopen', hsame.symm⟩
        · exact hkept comment hcomment hsame hc
    | some t =>
      have hopen' : isOpenTrade accountId "" { row with closeTime := some t } = false := by
        refine Bool.eq_false_iff.mpr fun hn => ?_
        cases (isOpenTrade_iff.mp hn).2
      refine exposureBut_le_of_trades (-row.volume) (openPositionLots_le hne ?_) ?_
      · rw [Table.worth_of_get hget, Table.worth_of_get hrow, hopen, hopen']
        simp
      · rcases leg_of_trade h hrow with ⟨l, leg, hleg, hpos, hcomment, hvolume⟩ | ⟨hforeign, hvolume⟩
        · have hle : activeSignalLots o' accountId "" e ≤
              activeSignalLots o accountId "" e + leg.lotSize := by
            refine activeSignalLots_le_add h hbase hleg ?_ fun comment hc hother =>
              hkept comment hc fun hsame => hother (hsame.trans hcomment)
            have hnonneg : 0 ≤ activeLegLots o accountId "" e leg := activeLegLots_nonneg h hleg
            rcases activeLegLots_cases o' accountId e leg with hzero | ⟨hlot, -⟩
            · rw [hzero]
              linarith
            · rw [hlot]
              linarith
          rw [hvolume]
          linarith
        · have hle : activeSignalLots o' accountId "" e ≤ activeSignalLots o accountId "" e := by
            unfold activeSignalLots
            rw [hbase]
            refine Table.total_le_total fun l => ?_
            cases hleg : o.base.db.legs.get l with
            | none => rw [Table.worth_of_get_none hleg, Table.worth_of_get_none hleg]
            | some leg =>
              rw [Table.worth_of_get hleg, Table.worth_of_get hleg]
              exact activeLegLots_le h hbase hleg
                (hkept _ (legComment_ne_empty _ _) fun hsame => hforeign _ _ hsame.symm)
          linarith

/-- A quiet step makes no account hold more, and neither does it what a promotion counts whose own
plan is not promoted. -/
theorem exposureBut_step (h : Settled o) (ha : Sane o a) (hq : Quiet o accountId a)
    (he : ∀ k, e = some k → ∀ plan, o.base.db.plans.get k = some plan → plan.status ≠ .promoted) :
    exposureBut (Orders.step o a) accountId "" e ≤ exposureBut o accountId "" e := by
  by_cases hsync : a.actor = .sync
  · cases a <;> cases hsync
    rename_i p stale
    have hquiet : addsTo o (.ingest p stale) ≠ some accountId := by
      intro hadds
      obtain ⟨q, session, plan, heq, -⟩ := hq hadds
      cases heq
    have hbase : (Orders.step o (.ingest p stale)).base = o.base :=
      (frame o (.ingest p stale)).base (.inr rfl)
    cases hposition : o.positions.get p with
    | none => simp only [Orders.step, ingest, hposition, le_refl]
    | some position =>
      have htrades : (Orders.step o (.ingest p stale)).trades =
          upsertTrade o.trades p (seenTrade position stale) := by
        simp only [Orders.step, ingest, hposition]
      cases hrow : o.trades.get p with
      | none =>
        refine exposureBut_insert h hposition hrow hquiet he hbase ?_
        rw [htrades, upsertTrade, hrow]
      | some row =>
        have hget : (Orders.step o (.ingest p stale)).trades.get p = some
            { row with closeTime := (seenTrade position stale).closeTime.or row.closeTime } := by
          rw [htrades, upsertTrade, hrow]
          dsimp only
          rw [Table.get_modify_self, hrow]
          rfl
        refine exposureBut_modify h hrow ?_ hbase hget fun q hqp => ?_
        · intro hsome
          rw [Option.isSome_or, hsome, Bool.or_true]
        · rw [htrades]
          exact get_upsertTrade_of_ne hqp
  · have htrades := (frame o a).trades hsync
    refine add_le_add ?_ (activeSignalLots_step h ha hq htrades)
    rw [htrades]

/-! ### The sizes of a plan -/

def planLots (db : Db) (k : ℕ) : ℚ :=
  db.legs.total fun _ leg => if leg.planId = k then leg.lotSize else 0

/-- The sizes that a validation adds up. -/
lemma sum_legsOf (db : Db) (k : ℕ) :
    (((legsOf db k).map Prod.snd).map (·.lotSize)).sum = planLots db k := by
  have hperm : ((legsOf db k).map fun leg => leg.2.lotSize).Perm
      ((db.legs.filter fun _ leg => leg.planId = k).map fun leg => leg.2.lotSize) :=
    (List.perm_insertionSort _ _).map _
  rw [List.map_map]
  refine (hperm.sum_eq).trans ?_
  rw [Table.sum_filter db.legs (fun _ leg => leg.planId = k) fun _ leg => leg.lotSize, planLots]
  refine congrArg db.legs.total (funext fun _ => funext fun leg => ?_)
  simp

variable {session : Session}

lemma planLots_step (h : Settled o) (ha : Sane o a)
    (hp : checked? (o.base.promoters p) = some session) :
    planLots (Orders.step o a).base.db session.planId ≤ planLots o.base.db session.planId := by
  have hk := (h.inv.base.session p session (session_of_checked hp)).plan
  have hnonneg : ∀ l, 0 ≤ o.base.db.legs.worth
      (fun _ leg => if leg.planId = session.planId then leg.lotSize else 0) l := by
    intro l
    cases hleg : o.base.db.legs.get l with
    | none => rw [Table.worth_of_get_none hleg]
    | some leg =>
      rw [Table.worth_of_get hleg]
      split_ifs with hplan
      · exact (h.sizes.session p session hp l leg hleg hplan).le
      · exact le_rfl
  refine Table.total_le_total fun l => ?_
  cases hleg' : (Orders.step o a).base.db.legs.get l with
  | none =>
    rw [Table.worth_of_get_none hleg']
    exact hnonneg l
  | some leg' =>
    rw [Table.worth_of_get hleg']
    split_ifs with hplan
    · obtain ⟨leg, hleg, hp', -, hsize, -⟩ :=
        leg_of_step h.inv.base ha.freeCommits hk hleg' hplan
      rw [Table.worth_of_get hleg, if_pos hp', hsize]
    · exact hnonneg l

lemma exposureBut_commit (h : Settled o) (hp : o.base.promoters p = .ready session)
    (ha : Sane o (.promotion (.commit p .done))) :
    exposureBut (Orders.step o (.promotion (.commit p .done))) accountId "" none ≤
      exposureBut o accountId "" (some session.planId) + planLots o.base.db session.planId := by
  have htrades : (Orders.step o (.promotion (.commit p .done))).trades = o.trades :=
    (frame o _).trades (by simp [Orders.Action.actor])
  have hchecked : checked? (o.base.promoters p) = some session := by rw [hp]; rfl
  have hactive : activeSignalLots (Orders.step o (.promotion (.commit p .done))) accountId "" none ≤
      activeSignalLots o accountId "" (some session.planId) +
        planLots o.base.db session.planId := by
    unfold activeSignalLots planLots
    rw [← Table.total_add]
    have hnonneg : ∀ l leg, o.base.db.legs.get l = some leg →
        0 ≤ if leg.planId = session.planId then leg.lotSize else 0 := by
      intro l leg hleg
      split_ifs with hplan
      · exact (h.sizes.session p session hchecked l leg hleg hplan).le
      · exact le_rfl
    have hworth : ∀ l, 0 ≤ o.base.db.legs.worth (fun k v =>
        activeLegLots o accountId "" (some session.planId) v +
          if v.planId = session.planId then v.lotSize else 0) l := by
      intro l
      cases hleg : o.base.db.legs.get l with
      | none => rw [Table.worth_of_get_none hleg]
      | some leg =>
        rw [Table.worth_of_get hleg]
        exact add_nonneg (activeLegLots_nonneg h hleg) (hnonneg l leg hleg)
    refine Table.total_le_total fun l => ?_
    cases hleg' : (Orders.step o (.promotion (.commit p .done))).base.db.legs.get l with
    | none =>
      rw [Table.worth_of_get_none hleg']
      exact hworth l
    | some leg' =>
      rw [Table.worth_of_get hleg']
      rcases activeLegLots_cases (Orders.step o (.promotion (.commit p .done))) accountId none leg'
        with hzero | ⟨hlot, hpromoted, -, hclosed⟩
      · rw [hzero]
        exact hworth l
      · obtain ⟨plan', hplan', haccount', hstatus'⟩ := isPromotedLeg_iff.mp hpromoted
        have hmem : leg'.planId ∈ o.base.db.plans.keys := by
          rcases promoted_or_commit hplan' hstatus' with
            ⟨plan, hplan, -⟩ | ⟨-, -, plan, -, -, -, hplan, -⟩ <;>
            exact Table.mem_keys_of_get hplan
        obtain ⟨leg, hleg, hk, hindex, hsize, -⟩ :=
          leg_of_step h.inv.base ha.freeCommits hmem hleg' rfl
        rw [Table.worth_of_get hleg, hlot, hsize]
        by_cases hown : leg.planId = session.planId
        · rw [if_pos hown]
          have hleft : 0 ≤ activeLegLots o accountId "" (some session.planId) leg :=
            activeLegLots_nonneg h hleg
          linarith
        · rw [if_neg hown, add_zero]
          -- the plan of another leg was promoted before
          rcases promoted_or_commit hplan' hstatus' with
            ⟨plan, hplan, hsame, hstatus⟩ | ⟨q, session', -, heq, hq, hid, -⟩
          · have hold : activeLegLots o accountId "" (some session.planId) leg = leg.lotSize := by
              unfold activeLegLots
              refine if_pos ⟨isPromotedLeg_iff.mpr
                ⟨plan, by rw [hk]; exact hplan, hsame.trans haccount', hstatus⟩, ?_, ?_⟩
              · exact fun heq => hown (Option.some.inj heq).symm
              · rw [hk, ← hindex, ← htrades]
                exact hclosed
            rw [hold]
          · cases heq
            rw [hp] at hq
            cases hq
            exact absurd (hk.trans hid.symm) hown
  unfold exposureBut
  rw [htrades]
  linarith

/-! ### Runs -/

variable {s : State}

def SaneStep (s : State) : Action → Prop
  | .setRisk _ => True
  | .orders a => Sane s.orders a

/-- A step in which nothing overtakes a promotion of the account.  A promotion commits a plan that is
still planned, with nothing added to the account since its risk check, or promotes a promoted plan
again; a trade that arrives open is that of a promoted leg; and nobody else opens positions. -/
def Careful (accountId : ℕ) (s : State) : Action → Prop
  | .setRisk _ => True
  | .orders (.promotion (.commit p .done)) =>
    match s.orders.base.promoters p with
    | .ready session => StillFree s.orders.base.db session.legs ∧
      (session.plan.accountId = accountId → ∃ plan,
        s.orders.base.db.plans.get session.planId = some plan ∧
          (plan.status = .promoted ∨ plan.status = .planned ∧ s.overtaken p = false))
    | _ => True
  | .orders (.openElsewhere _) => False
  | .orders a => addsTo s.orders a ≠ some accountId

instance (s : State) (p : ℕ) : Decidable (Careful accountId s (.orders (.promotion (.commit p .done)))) :=
  match h : s.orders.base.promoters p with
  | .ready session =>
    decidable_of_iff (StillFree s.orders.base.db session.legs ∧
      (session.plan.accountId = accountId →
        (s.orders.base.db.plans.get session.planId).any fun plan =>
          plan.status = .promoted ∨ plan.status = .planned ∧ s.overtaken p = false))
      (by simp [Careful, h, Option.any_eq_true])
  | .idle | .loaded _ | .validated _ | .rejected .. => .isTrue (by simp only [Careful, h])

lemma Careful.sane {a : Action} (h : Careful accountId s a) : SaneStep s a := by
  cases a with
  | setRisk => trivial
  | orders a =>
    cases a with
    | promotion b =>
      cases b with
      | commit p outcome =>
        cases outcome with
        | done =>
          show FreeLegs s.orders.base (.commit p .done)
          cases hp : s.orders.base.promoters p with
          | ready session =>
            simp only [Careful, hp] at h
            simp only [FreeLegs, hp]
            exact h.1
          | idle | loaded | validated | rejected => simp only [FreeLegs, hp]
        | integrityError | otherError => trivial
      | _ => trivial
    | openElsewhere => exact absurd h id
    | _ => trivial

/-- How the orders go on: not at all, by one step, or by a validation under the controls. -/
inductive OrdersStep (s : State) : Action → State → Prop
  | stays (a : Action) (s' : State) : s'.orders = s.orders → s'.overtaken = s.overtaken →
      OrdersStep s a s'
  | steps (a : Orders.Action) (s' : State) : (∀ p, a ≠ .promotion (.validate p)) →
      s'.orders = Orders.step s.orders a → s'.overtaken = overtakes s a →
      OrdersStep s (.orders a) s'
  | validates (p : ℕ) (session : Session) (s' : State) :
      s.orders.base.promoters p = .loaded session →
      s'.orders = Orders.step (armed s session) (.promotion (.validate p)) →
      s'.overtaken = Function.update s.overtaken p false →
      OrdersStep s (.orders (.promotion (.validate p))) s'

lemma orders_step (s : State) (a : Action) : OrdersStep s a (step s a) := by
  cases a with
  | setRisk risk => exact .stays _ _ rfl rfl
  | orders a =>
    cases a with
    | promotion b =>
      cases b with
      | validate p =>
        dsimp only [step]
        cases hp : s.orders.base.promoters p with
        | loaded session => exact .validates p session _ hp rfl rfl
        | idle | validated | ready | rejected => exact .stays _ _ rfl rfl
      | _ => exact .steps _ _ (fun p => by rintro ⟨⟩) rfl rfl
    | _ => exact .steps _ _ (fun p => by rintro ⟨⟩) rfl rfl

lemma caps_step (s : State) (a : Action) : (step s a).caps = s.caps := by
  cases a with
  | setRisk => rfl
  | orders a =>
    cases a with
    | promotion b =>
      cases b with
      | validate p =>
        dsimp only [step]
        cases s.orders.base.promoters p <;> rfl
      | _ => rfl
    | _ => rfl

lemma settled_armed (h : Settled s.orders) (session : Session) : Settled (armed s session) :=
  settled_step h (a := .promotion (.setEnv _)) trivial

theorem settledStep (h : Settled s.orders) {a : Action} (ha : SaneStep s a) :
    Settled (step s a).orders := by
  have hstep := orders_step s a
  generalize step s a = s' at hstep
  cases hstep with
  | stays _ _ horders => rw [horders]; exact h
  | steps b _ _ horders => rw [horders]; exact settled_step h ha
  | validates p session _ _ horders =>
    rw [horders]
    exact settled_step (settled_armed h session) (a := .promotion (.validate p)) trivial

/-- Every promotion that nothing has overtaken would still pass its risk check. -/
def Checked (accountId : ℕ) (s : State) : Prop :=
  ∀ p session, checked? (s.orders.base.promoters p) = some session →
    session.plan.accountId = accountId → s.overtaken p = false →
      ∀ plan, s.orders.base.db.plans.get session.planId = some plan → plan.status = .planned →
        exposureBut s.orders accountId "" (some session.planId) +
          planLots s.orders.base.db session.planId ≤ s.caps.maxAccountExposureLot

lemma planned_before (hk : k ∈ o.base.db.plans.keys) {plan' : SignalExecutionPlan}
    (hplan' : (Orders.step o a).base.db.plans.get k = some plan')
    (hstatus : plan'.status = .planned) : o.base.db.plans.get k = some plan' := by
  obtain ⟨plan, hplan⟩ := Table.get_of_mem_keys hk
  have hbase : ∀ b, (Promotion.step o.base b).db.plans.get k = some plan' →
      o.base.db.plans.get k = some plan' := by
    intro b hget
    have hmoves := plan_step o.base b k
    rw [hplan, hget] at hmoves
    cases hmoves with
    | stays => exact hplan
    | voided | promoted | closed => cases hstatus
  have hstep := base_step o a
  generalize (Orders.step o a).base = base' at hstep hplan'
  cases hstep with
  | stays => exact hplan'
  | saves | frees | promotes => exact hbase _ hplan'

lemma checked_later (h : Settled o) (ha : Sane o a) (hq : Quiet o accountId a) {cap : ℚ}
    (hp : checked? (o.base.promoters p) = some session)
    (hold : ∀ plan, o.base.db.plans.get session.planId = some plan → plan.status = .planned →
      exposureBut o accountId "" (some session.planId) + planLots o.base.db session.planId ≤ cap)
    {plan' : SignalExecutionPlan}
    (hplan' : (Orders.step o a).base.db.plans.get session.planId = some plan')
    (hstatus : plan'.status = .planned) :
    exposureBut (Orders.step o a) accountId "" (some session.planId) +
      planLots (Orders.step o a).base.db session.planId ≤ cap := by
  have hk := (h.inv.base.session p session (session_of_checked hp)).plan
  have hplan := planned_before hk hplan' hstatus
  have hexposure : exposureBut (Orders.step o a) accountId "" (some session.planId) ≤
      exposureBut o accountId "" (some session.planId) := by
    refine exposureBut_step h ha hq fun k heq plan hget => ?_
    cases heq
    rw [hplan] at hget
    cases hget
    rw [hstatus]
    exact fun hn => nomatch hn
  have hlots := planLots_step h ha hp
  have hcap := hold plan' hplan hstatus
  linarith

lemma exposureBut_congr (hdb : o'.base.db = o.base.db) (htrades : o'.trades = o.trades) :
    exposureBut o' accountId "" e = exposureBut o accountId "" e := by
  have hleg : activeLegLots o' accountId "" e = activeLegLots o accountId "" e := by
    funext leg
    unfold activeLegLots
    rw [hdb, htrades]
  rw [exposureBut, exposureBut, activeSignalLots, activeSignalLots, hleg, hdb, htrades]

lemma exposure_of_passes {legs : List ProposedOrderLeg} {mode : ExecutionMode}
    (h : validate (armed s session).base.env (armed s session).base.now mode session.plan legs =
      none) :
    exposureBut s.orders session.plan.accountId "" (some session.planId) +
      (legs.map (·.lotSize)).sum ≤ s.caps.maxAccountExposureLot := by
  have hall := firstRefusal_eq_none_iff.mp h
  have hrisk : (evaluatePromotionRisk s.caps s.risk s.orders session.planId session.plan legs).isNone :=
    hall (_, _) (List.mem_append_right _ (List.mem_cons_of_mem _ List.mem_cons_self))
  unfold evaluatePromotionRisk at hrisk
  split_ifs at hrisk with hraises
  · cases hrisk
  · have hchecks := firstRefusal_eq_none_iff.mp (Option.isNone_iff_eq_none.mp hrisk)
    exact of_decide_eq_true (hchecks (_, _) (List.mem_cons_of_mem _ List.mem_cons_self))

lemma quiet_of_addsTo (h : addsTo o a ≠ some accountId) : Quiet o accountId a :=
  fun hadds => absurd hadds h

lemma checked_before (hno : ∀ p, a ≠ .promotion (.validate p))
    (hp : checked? ((Orders.step o a).base.promoters p) = some session) :
    ∃ session₀, checked? (o.base.promoters p) = some session₀ ∧ session₀.planId = session.planId ∧
      session₀.plan = session.plan := by
  have hbase : ∀ b, b ≠ .validate p →
      checked? ((Promotion.step o.base b).promoters p) = some session →
        ∃ session₀, checked? (o.base.promoters p) = some session₀ ∧
          session₀.planId = session.planId ∧ session₀.plan = session.plan := by
    intro b hb hget
    rcases checked_step o.base b p hget with hold | ⟨-, -, -, -, heq, -⟩
    · exact hold
    · exact absurd heq hb
  have hstep := base_step o a
  generalize (Orders.step o a).base = base' at hstep hp
  cases hstep with
  | stays => exact ⟨session, hp, rfl, rfl⟩
  | saves _ j status text t => exact hbase (.workJob j status text t) (fun hn => nomatch hn) hp
  | frees r i => exact hbase (.closePlan i) (fun hn => nomatch hn) hp
  | promotes b b' hb =>
    refine hbase b' (fun hn => ?_) hp
    subst hn
    cases b <;> simp only [seenHere, Option.some.injEq, reduceCtorEq] at hb
    exact hno p (by rw [hb])

theorem checked_inv (h : Settled s.orders) (hc : Checked accountId s) {a : Action}
    (ha : SaneStep s a) : Checked accountId (step s a) := by
  have hcaps := caps_step s a
  have hstep := orders_step s a
  generalize step s a = s' at hcaps hstep
  intro p session hp haccount hfresh plan' hplan' hstatus
  rw [hcaps]
  cases hstep with
  | stays _ _ horders hovertaken =>
    rw [horders] at hp hplan' ⊢
    rw [hovertaken] at hfresh
    exact hc p session hp haccount hfresh plan' hplan' hstatus
  | steps b _ hno horders hovertaken =>
    rw [horders] at hp hplan' ⊢
    rw [hovertaken] at hfresh
    obtain ⟨hold, hany⟩ := Bool.or_eq_false_iff.mp hfresh
    obtain ⟨session₀, hp₀, hid, hsame⟩ := checked_before hno hp
    have hquiet : Quiet s.orders accountId b := by
      intro hadds
      have hof : accountOf s.orders p = some accountId := by
        rw [accountOf, session_of_checked hp₀, Option.map_some, hsame, haccount]
      rw [hof, Option.any_some, decide_eq_false_iff_not] at hany
      exact absurd hadds hany
    rw [← hid] at hplan' ⊢
    exact checked_later h ha hquiet hp₀
      (fun plan hplan hs => hc p session₀ hp₀ (by rw [hsame]; exact haccount) hold plan hplan hs)
      hplan' hstatus
  | validates q session₀ _ hq horders hovertaken =>
    rw [horders] at hp hplan' ⊢
    rw [hovertaken] at hfresh
    have hdb : (Orders.step (armed s session₀) (.promotion (.validate q))).base.db =
        s.orders.base.db := by
      show (Promotion.step (armed s session₀).base (.validate q)).db = s.orders.base.db
      simp only [Promotion.step, show (armed s session₀).base.promoters q = .loaded session₀ from hq]
      rw [db_validateSession]
      rfl
    rw [hdb] at hplan' ⊢
    rw [exposureBut_congr hdb rfl]
    rcases checked_step (armed s session₀).base (.validate q) p hp with
      ⟨session₁, hp₁, hid, hsame⟩ | ⟨session₁, hloaded, hid, hsame, heq, hval⟩
    · have hpq : p ≠ q := by
        rintro rfl
        rw [show (armed s session₀).base.promoters p = .loaded session₀ from hq] at hp₁
        cases hp₁
      rw [Function.update_of_ne hpq] at hfresh
      rw [← hid] at hplan' ⊢
      exact hc p session₁ hp₁ (by rw [hsame]; exact haccount) hfresh plan' hplan' hstatus
    · cases heq
      rw [show (armed s session₀).base.promoters p = .loaded session₀ from hq] at hloaded
      cases hloaded
      rw [← hsame] at hval
      have hpass := exposure_of_passes hval
      rw [sum_legsOf, hid, hsame, haccount] at hpass
      exact hpass

/-- What the account holds: the open lots and the signal lots in flight. -/
def exposure (s : State) (accountId : ℕ) : ℚ := exposureBut s.orders accountId "" none

def WithinCap (accountId : ℕ) (s : State) : Prop :=
  exposure s accountId ≤ s.caps.maxAccountExposureLot

instance (accountId : ℕ) (s : State) : Decidable (WithinCap accountId s) :=
  inferInstanceAs (Decidable (_ ≤ _))

/-- A careful step keeps an exposure within the cap. -/
theorem withinCap_step (h : Settled s.orders) (hc : Checked accountId s)
    (hcap : WithinCap accountId s) {a : Action} (ha : Careful accountId s a) :
    WithinCap accountId (step s a) := by
  have hcaps := caps_step s a
  have hsane := ha.sane
  have hstep := orders_step s a
  generalize step s a = s' at hcaps hstep
  unfold WithinCap exposure at *
  rw [hcaps]
  cases hstep with
  | stays _ _ horders => rw [horders]; exact hcap
  | validates p session _ hp horders =>
    rw [horders]
    have harmed : exposureBut (armed s session) accountId "" none ≤
        exposureBut s.orders accountId "" none :=
      exposureBut_step h (a := .promotion (.setEnv _)) trivial
        (quiet_of_addsTo fun hn => nomatch hn) (fun k hk => nomatch hk)
    have hval : exposureBut (Orders.step (armed s session) (.promotion (.validate p))) accountId ""
        none ≤ exposureBut (armed s session) accountId "" none :=
      exposureBut_step (settled_armed h session) trivial (quiet_of_addsTo fun hn => nomatch hn)
        (fun k hk => nomatch hk)
    linarith
  | steps b _ hno horders =>
    rw [horders]
    by_cases hadds : addsTo s.orders b = some accountId
    · cases b with
      | promotion b =>
        cases b with
        | commit p outcome =>
          cases outcome with
          | done =>
            cases hp : s.orders.base.promoters p with
            | ready session =>
              simp only [Careful, hp] at ha
              simp only [addsTo, hp, Option.some.injEq] at hadds
              obtain ⟨plan, hplan, hpromoted | ⟨hplanned, hfresh⟩⟩ := ha.2 hadds
              · have hquiet : Quiet s.orders accountId (.promotion (.commit p .done)) :=
                  fun _ => ⟨p, session, plan, rfl, hp, hplan, hpromoted⟩
                have hle : exposureBut (Orders.step s.orders (.promotion (.commit p .done)))
                    accountId "" none ≤ exposureBut s.orders accountId "" none :=
                  exposureBut_step h hsane hquiet (fun k hk => nomatch hk)
                linarith
              · have hcheck := hc p session (by rw [hp]; rfl) hadds hfresh plan hplan hplanned
                have hle : exposureBut (Orders.step s.orders (.promotion (.commit p .done)))
                    accountId "" none ≤ exposureBut s.orders accountId "" (some session.planId) +
                      planLots s.orders.base.db session.planId :=
                  exposureBut_commit h hp hsane
                linarith
            | idle | loaded | validated | rejected =>
              simp only [addsTo, hp] at hadds
              cases hadds
          | integrityError | otherError => cases hadds
        | _ => cases hadds
      | ingest p stale => exact absurd hadds ha
      | _ => cases hadds
    · have hle : exposureBut (Orders.step s.orders b) accountId "" none ≤
          exposureBut s.orders accountId "" none :=
        exposureBut_step h hsane (quiet_of_addsTo hadds) (fun k hk => nomatch hk)
      linarith

lemma settled_of_start (env : Env) (now : Time) (caps : RiskCaps) (risk : RiskEnv) :
    Settled (start env now caps risk).orders :=
  settled_start env now

lemma checked_start (env : Env) (now : Time) (caps : RiskCaps) (risk : RiskEnv) :
    Checked accountId (start env now caps risk) := by
  intro p session hp
  cases hp

/-- From a state in which the exposure of an account is within the cap, it stays so in the runs whose
steps are careful. -/
theorem withinCap_of_careful (env : Env) (now : Time) (caps : RiskCaps) (risk : RiskEnv)
    (accountId : ℕ) (pre as : List Action)
    (hpre : StepsMeet step SaneStep (start env now caps risk) pre)
    (hcap : WithinCap accountId (run step (start env now caps risk) pre))
    (has : StepsMeet step (Careful accountId) (run step (start env now caps risk) pre) as)
    (bs : List Action) (hbs : bs <+: as) :
    WithinCap accountId (run step (start env now caps risk) (pre ++ bs)) := by
  obtain ⟨cs, rfl⟩ := hbs
  have hstart : Settled (run step (start env now caps risk) pre).orders ∧
      Checked accountId (run step (start env now caps risk) pre) :=
    run_invariant_of_meets (P := fun s => Settled s.orders ∧ Checked accountId s)
      (fun _ _ h ha => ⟨settledStep h.1 ha, checked_inv h.1 h.2 ha⟩)
      ⟨settled_of_start env now caps risk, checked_start env now caps risk⟩ hpre
  rw [run_append]
  have hlast := run_invariant_of_meets
    (P := fun s => (Settled s.orders ∧ Checked accountId s) ∧ WithinCap accountId s)
    (fun _ _ h ha => ⟨⟨settledStep h.1.1 ha.sane, checked_inv h.1.1 h.1.2 ha.sane⟩,
      withinCap_step h.1.1 h.1.2 h.2 ha⟩) ⟨hstart, hcap⟩ (stepsMeet_append.mp has).1
  exact hlast.2

/-! ### Two promotions that are checked first -/

/-- Larger plans are allowed. -/
def largeEnv : Env := { sampleEnv with
  sourceConfig := fun _ => some
    { autoDemoExecutionEnabled := true, maxLotPerLeg := 3 / 2, maxTotalLot := 3 / 2 } }

def sampleRisk : RiskEnv where
  requireTerminalNode := false
  nodeActive := fun _ => true
  orderCheck := fun _ _ => some { equity := some 50000, freeMargin := some 49000, margin := some 1000 }
  profit := fun _ => 0
  raises := fun _ => false

def sampleStart : State := start largeEnv 0 {} sampleRisk

def planRun (lots : ℚ) : List Action :=
  [.orders (.promotion (.createPlan 1 samplePlan (.planned [("2310", lots)]))),
    .orders (.promotion (.createPlan 2 samplePlan (.planned [("2310", lots)]))),
    .orders (.promotion (.load 0 1 .demo true)), .orders (.promotion (.load 1 2 .demo true))]

/-- One promotion after the other. -/
def oneByOne : List Action :=
  planRun (6 / 5) ++
    [.orders (.promotion (.validate 0)), .orders (.promotion (.readLegs 0)),
      .orders (.promotion (.commit 0 .done)), .orders (.promotion (.validate 1)),
      .orders (.promotion (.readLegs 1)), .orders (.promotion (.commit 1 .done))]

/-- Both plans are validated before either promotion commits. -/
def bothChecked : List Action :=
  planRun (3 / 2) ++
    [.orders (.promotion (.validate 0)), .orders (.promotion (.validate 1)),
      .orders (.promotion (.readLegs 0)), .orders (.promotion (.readLegs 1)),
      .orders (.promotion (.commit 0 .done)), .orders (.promotion (.commit 1 .done))]

theorem withinCap_oneByOne : WithinCap 1 (run step sampleStart oneByOne) := by
  have hfirst : Careful 1 (run step sampleStart (oneByOne.take 6))
      (.orders (.promotion (.commit 0 .done))) := by
    decide +kernel
  have hsecond : Careful 1 (run step sampleStart (oneByOne.take 9))
      (.orders (.promotion (.commit 1 .done))) := by
    decide +kernel
  have hno : ∀ s a, addsTo s a = none → addsTo s a ≠ some 1 := by
    intro s a hnone
    rw [hnone]
    exact nofun
  exact withinCap_of_careful largeEnv 0 {} sampleRisk 1 [] oneByOne trivial (by decide +kernel)
    ⟨hno _ _ rfl, hno _ _ rfl, hno _ _ rfl, hno _ _ rfl, hno _ _ rfl, hno _ _ rfl, hfirst,
      hno _ _ rfl, hno _ _ rfl, hsecond, trivial⟩ oneByOne (List.prefix_refl _)

/-- Both promotions pass, and together they exceed the cap. -/
theorem withinCap_broken : WithinCap 1 sampleStart ∧
    ¬ WithinCap 1 (run step sampleStart bothChecked) ∧
      ∀ a ∈ bothChecked, ∀ trade, a ≠ .orders (.openElsewhere trade) := by
  refine ⟨by decide +kernel, by decide +kernel, fun a ha trade heq => ?_⟩
  subst heq
  simp [bothChecked, planRun] at ha

end RiskControls
end GuvFX
