/-
# The sizes of orders

A leg keeps the size that it was planned with.  The promotion of its plan has seen that the size is
positive, and its order asks for it, so that its position has the size of the leg.  This holds in
every run in which no commit gives a leg a second job and in which whoever else opens positions
neither uses the comments of legs nor opens less than nothing.
-/
import GuvFX.Execution.OrderRuns

namespace GuvFX
namespace Orders

open Runs Promotion Checks
open Consumer (JobType JobStatus)

variable {s : State} {a : Action} {j k l p : ℕ}

/-- One job for each leg, and foreign positions that are recognised as such. -/
def Sane (s : State) : Action → Prop
  | .openElsewhere trade => (∀ k i, trade.comment ≠ legComment k i) ∧ 0 ≤ trade.volume
  | a => FreeCommits s a

lemma Sane.freeCommits (h : Sane s a) : FreeCommits s a := by
  cases a with
  | openElsewhere => trivial
  | _ => exact h

/-! ### Legs -/

lemma leg_of_step (h : Promotion.Inv s.base) (ha : FreeCommits s a)
    (hk : k ∈ s.base.db.plans.keys) {leg' : ProposedOrderLeg}
    (hleg' : (step s a).base.db.legs.get l = some leg') (hplan : leg'.planId = k) :
    ∃ leg, s.base.db.legs.get l = some leg ∧ leg.planId = k ∧ leg'.legIndex = leg.legIndex ∧
      leg'.lotSize = leg.lotSize ∧
        (leg.executionJobId ≠ none → leg'.executionJobId = leg.executionJobId) := by
  obtain ⟨leg, hleg, hp⟩ := of_leg_kept h ha hk hleg' hplan
  obtain ⟨executionJobId, status, hnew, hkept⟩ := leg_kept h ha hleg
  rw [hleg'] at hnew
  cases hnew
  exact ⟨leg, hleg, hp, rfl, rfl, fun hsome => (hkept hsome).1⟩

/-- The promotion that is past its validation. -/
def checked? : Promoter → Option Session
  | .validated session | .ready session => some session
  | _ => none

lemma session_of_checked {promoter : Promoter} {session : Session}
    (h : checked? promoter = some session) : promoter.session? = some session := by
  cases promoter with
  | idle | loaded | rejected => cases h
  | validated | ready => exact h

/-- A validation that passes has seen positive sizes. -/
lemma pos_of_validate {env : Env} {now : Time} {mode : ExecutionMode} {plan : SignalExecutionPlan}
    {legs : List ProposedOrderLeg} (h : validate env now mode plan legs = none)
    {leg : ProposedOrderLeg} (hleg : leg ∈ legs) : 0 < leg.lotSize := by
  have hall := firstRefusal_eq_none_iff.mp h
  have hmem : (decide (0 < leg.lotSize ∧ leg.lotSize ≤ (sizingCaps env plan.source).1),
      "lot_out_of_range") ∈ validateChecks env now mode plan legs := by
    refine List.mem_append_left _ (List.mem_append_right _ (List.mem_flatMap.mpr ⟨leg, hleg, ?_⟩))
    exact List.mem_cons_of_mem _ List.mem_cons_self
  exact (of_decide_eq_true (hall _ hmem)).1

lemma checked_step (s : Promotion.State) (b : Promotion.Action) (p : ℕ) {session : Session}
    (h : checked? ((Promotion.step s b).promoters p) = some session) :
    (∃ session₀, checked? (s.promoters p) = some session₀ ∧ session₀.planId = session.planId ∧
        session₀.plan = session.plan) ∨
      ∃ session₀, s.promoters p = .loaded session₀ ∧ session₀.planId = session.planId ∧
        session₀.plan = session.plan ∧ b = .validate p ∧
        validate s.env s.now session.mode session.plan
          ((legsOf s.db session.planId).map Prod.snd) = none := by
  have hmoves := promoter_step s b p
  generalize (Promotion.step s b).promoters p = promoter' at hmoves h
  generalize hold : s.promoters p = promoter at hmoves
  cases hmoves with
  | stays => exact .inl ⟨session, h, rfl, rfl⟩
  | leaves _ _ hnone => rw [session_of_checked h] at hnone; cases hnone
  | loads => cases h
  | passes session₀ brokerSymbol hb hval =>
    cases h
    exact .inr ⟨session₀, rfl, rfl, rfl, hb, hval⟩
  | reads session₀ => cases h; exact .inl ⟨session₀, rfl, rfl, rfl⟩

/-- The sizes of legs, as promotions and jobs know them. -/
structure Sizes (s : State) : Prop where
  session : ∀ p session, checked? (s.base.promoters p) = some session →
    ∀ l leg, s.base.db.legs.get l = some leg → leg.planId = session.planId → 0 < leg.lotSize
  seen : ∀ p session, s.base.promoters p = .ready session → ∀ e ∈ session.legs,
    ∀ leg, s.base.db.legs.get e.1 = some leg → e.2.lotSize = leg.lotSize
  leg : ∀ l leg, s.base.db.legs.get l = some leg → leg.executionJobId ≠ none → 0 < leg.lotSize
  job : ∀ j job, s.base.db.jobs.get j = some job → ∀ l leg, s.base.db.legs.get l = some leg →
    leg.planId = job.payload.planId → leg.legIndex = job.payload.legIndex →
      job.payload.lots = leg.lotSize

lemma sizes_start (env : Env) (now : Time) : Sizes (start env now) where
  session := by intro p session h; cases h
  seen := by intro p session h; cases h
  leg := by intro l leg h; cases h
  job := by intro j job h; cases h

section Step

variable (h : Inv s) (hs : Sizes s) (ha : FreeCommits s a)

include h hs ha

lemma session_step (p : ℕ) (session : Session)
    (hp : checked? ((step s a).base.promoters p) = some session) (l : ℕ) (leg' : ProposedOrderLeg)
    (hleg' : (step s a).base.db.legs.get l = some leg') (hplan : leg'.planId = session.planId) :
    0 < leg'.lotSize := by
  -- the sizes before the step
  have hbefore : ∀ session₀ : Session, session₀.planId = session.planId →
      session₀.planId ∈ s.base.db.plans.keys →
      (∀ leg, (l, leg) ∈ legsOf s.base.db session₀.planId → 0 < leg.lotSize) →
        0 < leg'.lotSize := by
    intro session₀ hid hk hpos
    obtain ⟨leg, hleg, hp, -, hlot, -⟩ := leg_of_step h.base ha hk hleg' (hplan.trans hid.symm)
    rw [hlot]
    exact hpos leg (mem_legsOf.mpr ⟨hleg, hp⟩)
  have hold : checked? (s.base.promoters p) = some session → 0 < leg'.lotSize := by
    intro hc
    refine hbefore session rfl (h.base.session p session (session_of_checked hc)).plan ?_
    intro leg hmem
    obtain ⟨hleg, hp⟩ := mem_legsOf.mp hmem
    exact hs.session p session hc l leg hleg hp
  rcases base_free ha with heq | ⟨b, -, heq⟩
  · rw [heq] at hp
    exact hold hp
  · rw [heq] at hp
    rcases checked_step s.base b p hp with
      ⟨session₀, hc, hid, -⟩ | ⟨session₀, hloaded, hid, -, -, hval⟩
    · refine hbefore session₀ hid (h.base.session p session₀ (session_of_checked hc)).plan ?_
      intro leg hmem
      obtain ⟨hleg, hp⟩ := mem_legsOf.mp hmem
      exact hs.session p session₀ hc l leg hleg hp
    · refine hbefore session₀ hid (h.base.session p session₀ (by rw [hloaded]; rfl)).plan ?_
      intro leg hmem
      rw [hid] at hmem
      exact pos_of_validate hval (List.mem_map_of_mem (f := Prod.snd) hmem)

lemma seen_step (p : ℕ) (session : Session) (hp : (step s a).base.promoters p = .ready session)
    (e : ℕ × ProposedOrderLeg) (he : e ∈ session.legs) (leg' : ProposedOrderLeg)
    (hleg' : (step s a).base.db.legs.get e.1 = some leg') : e.2.lotSize = leg'.lotSize := by
  have hold : s.base.promoters p = .ready session → e.2.lotSize = leg'.lotSize := by
    intro hready
    have hread := h.base.session p session (by rw [hready]; rfl)
    obtain ⟨leg, hleg, -, -⟩ := hread.legs e he
    obtain ⟨executionJobId, status, hnew, -⟩ := leg_kept h.base ha hleg
    rw [hleg'] at hnew
    cases hnew
    exact hs.seen p session hready e he leg hleg
  rcases base_free ha with heq | ⟨b, -, heq⟩
  · rw [heq] at hp
    exact hold hp
  · rw [heq] at hp hleg'
    rcases (hp ▸ promoter_step s.base b p).ready with hready | ⟨session', rfl, hdb⟩
    · exact hold hready
    · rw [hdb, (mem_legsOf.mp he).1] at hleg'
      cases hleg'
      rfl

lemma leg_size_step (l : ℕ) (leg' : ProposedOrderLeg)
    (hleg' : (step s a).base.db.legs.get l = some leg') (hjob : leg'.executionJobId ≠ none) :
    0 < leg'.lotSize := by
  rcases base_free ha with heq | ⟨b, hb, heq⟩
  · rw [heq] at hleg'
    exact hs.leg l leg' hleg' hjob
  · rw [heq] at hleg'
    have heff := step_effect h.base.linked b
    generalize (Promotion.step s.base b) = base' at heff hleg'
    cases heff with
    | promotes p session hp hdb =>
      have hread := h.base.session p session (by rw [hp]; rfl)
      rw [hdb] at hleg'
      obtain ⟨leg, hleg, -, hcase⟩ := legs_of_foldl hread.legs hleg'
      rcases hcase with rfl | hplan
      · exact hs.leg l leg' hleg hjob
      · simp only [FreeLegs, hp] at hb
        obtain ⟨executionJobId, status, hnew, -⟩ :=
          legs_foldl_free s.base.env session hread.nodup hb hleg
        have hsame := hleg'.symm.trans hnew
        cases hsame
        exact hs.session p session (by rw [hp]; rfl) l leg hleg hplan
    | keeps _ hkeeps =>
      rcases hkeeps.newLeg l leg' hleg' with hold | ⟨hnone, -⟩
      · exact hs.leg l leg' hold hjob
      · exact absurd hnone hjob

lemma job_size_step (j : ℕ) (job' : ExecutionJob)
    (hjob' : (step s a).base.db.jobs.get j = some job') (l : ℕ) (leg' : ProposedOrderLeg)
    (hleg' : (step s a).base.db.legs.get l = some leg')
    (hplan : leg'.planId = job'.payload.planId) (hindex : leg'.legIndex = job'.payload.legIndex) :
    job'.payload.lots = leg'.lotSize := by
  have hmoves := step_moves s a j
  cases hold : s.base.db.jobs.get j with
  | none =>
    obtain ⟨p, session, e, -, hp, he, rfl, -⟩ := hmoves.new hold hjob'
    have hread := h.base.session p session (by rw [hp]; rfl)
    obtain ⟨leg, hleg, hp', hi, hlot, -⟩ := leg_of_step h.base ha hread.plan hleg' hplan
    obtain ⟨leg₀, hleg₀, hplan₀, hindex₀⟩ := hread.legs e he
    -- the leg is the one that the promotion has read
    have hkey : l = e.1 := h.base.linked.legKey l e.1 leg leg₀ hleg hleg₀ (hp'.trans hplan₀.symm)
      ((hi.symm.trans hindex).trans hindex₀.symm)
    subst hkey
    rw [hlot]
    exact hs.seen p session hp e he leg hleg
  | some job =>
    obtain ⟨job'', hjob'', hpayload, -⟩ := hmoves.kept hold
    have hsame : job'' = job' := Option.some.inj (hjob''.symm.trans hjob')
    subst hsame
    rw [hpayload] at hplan hindex ⊢
    obtain ⟨l₀, leg₀, hleg₀, hplan₀, -, -⟩ := h.base.linked.jobLeg j job hold
    have hk := hplan₀ ▸ h.base.linked.legPlan l₀ leg₀ hleg₀
    obtain ⟨leg, hleg, hp, hi, hlot, -⟩ := leg_of_step h.base ha hk hleg' hplan
    rw [hlot]
    exact hs.job j job hold l leg hleg hp (hi.symm.trans hindex)

end Step

theorem sizes_step (h : Inv s) (hs : Sizes s) (ha : FreeCommits s a) : Sizes (step s a) where
  session := session_step h hs ha
  seen := seen_step h hs ha
  leg := leg_size_step h hs ha
  job := job_size_step h hs ha

/-! ### Sane runs -/

/-- What the orders have in every sane run. -/
structure Settled (s : State) : Prop where
  inv : Inv s
  oneJob : OneJobPerLeg s.base.db
  foreign : Foreign s
  whole : Whole s.base
  accounts : Accounts s
  sizes : Sizes s
  /-- Whoever else opens positions opens no less than nothing. -/
  volume : ∀ p position, s.positions.get p = some position → position.jobId = none →
    0 ≤ position.volume

theorem settled_start (env : Env) (now : Time) : Settled (start env now) where
  inv := inv_start env now
  oneJob := by intro j j' job job' h; cases h
  foreign := by intro p position h; cases h
  whole := whole_start env now
  accounts := accounts_start env now
  sizes := sizes_start env now
  volume := by intro p position h; cases h

lemma volume_step (h : Settled s) (ha : Sane s a) (p : ℕ) (position' : Position)
    (hposition' : (step s a).positions.get p = some position') (hid : position'.jobId = none) :
    0 ≤ position'.volume := by
  have hmoves := position_step s a p
  generalize hold : s.positions.get p = row at hmoves
  rw [hposition'] at hmoves
  cases hmoves with
  | stays => exact h.volume p position' hold hid
  | filled => cases hid
  | elsewhere trade heq =>
    subst heq
    exact ha.2
  | closed position closeTime => exact h.volume p position hold hid

theorem settled_step (h : Settled s) (ha : Sane s a) : Settled (step s a) where
  inv := inv_step h.inv a
  oneJob := oneJob_step h.inv.base h.oneJob ha.freeCommits
  foreign := by
    refine foreign_step h.foreign ?_
    rintro trade rfl
    exact ha.1
  whole := by
    rcases base_free ha.freeCommits with heq | ⟨b, -, heq⟩
    · rw [heq]; exact h.whole
    · rw [heq]; exact whole_step h.inv.base h.whole b
  accounts := accounts_step h.inv h.accounts a
  sizes := sizes_step h.inv h.sizes ha.freeCommits
  volume := volume_step h ha

/-! ### Positions and their legs -/

lemma leg_of_position (h : Settled s) {position : Position}
    (hposition : s.positions.get p = some position) :
    (∃ l leg, s.base.db.legs.get l = some leg ∧ 0 < leg.lotSize ∧
        position.comment = legComment leg.planId leg.legIndex ∧ position.volume = leg.lotSize) ∨
      (∀ k i, position.comment ≠ legComment k i) ∧ 0 ≤ position.volume := by
  cases hid : position.jobId with
  | none => exact .inr ⟨h.foreign p position hposition hid, h.volume p position hposition hid⟩
  | some j =>
    obtain ⟨job, hjob, hcomment, -, hvolume⟩ := (h.inv.opened p position j hposition hid).job
    obtain ⟨l, leg, hleg, hplan, hindex, hsome⟩ := h.inv.base.linked.jobLeg j job hjob
    refine .inl ⟨l, leg, hleg, h.sizes.leg l leg hleg hsome, ?_, ?_⟩
    · rw [hcomment, h.inv.comment j job hjob, hplan, hindex]
    · rw [hvolume, h.sizes.job j job hjob l leg hleg hplan hindex]

lemma position_unique (h : Settled s) {p p' : ℕ} {position position' : Position} {k i : ℕ}
    (hposition : s.positions.get p = some position)
    (hposition' : s.positions.get p' = some position') (hcomment : position.comment = legComment k i)
    (hcomment' : position'.comment = legComment k i) : p = p' := by
  cases hid : position.jobId with
  | none => exact absurd hcomment (h.foreign p position hposition hid k i)
  | some j =>
    obtain ⟨job, hjob, hsame, -, -⟩ := (h.inv.opened p position j hposition hid).job
    have hkeys : legComment job.payload.planId job.payload.legIndex = legComment k i := by
      rw [← h.inv.comment j job hjob, ← hsame, hcomment]
    have hfilled := (h.inv.opened p position j hposition hid).filled
    have hfilled' := h.inv.filled_of_comment h.oneJob h.foreign hposition' hjob
      (hcomment'.trans hkeys.symm)
    rw [hfilled] at hfilled'
    cases hfilled'
    rfl

end Orders
end GuvFX
