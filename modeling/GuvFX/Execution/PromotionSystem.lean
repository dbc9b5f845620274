/-
# Promoters, cancellations and sweeps on the same plans

Any number of promoters work on the plans, each through its own copy of the plan: it loads the
plan, validates the copy, reads the legs, and commits one transaction.  A router voids the plan
that it could not promote; the commands of a provider and the sweeps over old plans void what is
planned by compare-and-set.  Between any two of these steps anybody else may act.

A commit trusts what its session has read: a plan that was voided in between is promoted, and a leg
that has received its job in between receives another one.
-/
import GuvFX.Lib.Runs
import GuvFX.Execution.PromotionRows

namespace GuvFX
namespace Promotion

open Runs
open Consumer (JobStatus)

/-! ### The system -/

inductive Promoter where
  | idle
  | loaded (session : Session)
  | validated (session : Session)
  | ready (session : Session)
  | rejected (planId : ℕ) (code : String)
  deriving DecidableEq, Repr

namespace Promoter

def session? : Promoter → Option Session
  | .loaded session | .validated session | .ready session => some session
  | .idle | .rejected .. => none

end Promoter

inductive Command where
  | idle
  | cancelling (planId : ℕ)
  /-- The order jobs of the plan may be cancelled. -/
  | withdrawing (planId : ℕ)
  deriving DecidableEq, Repr

structure State where
  env : Env
  now : Time
  db : Db
  promoters : ℕ → Promoter
  commands : ℕ → Command
  /-- The plans that a sweep has still to void. -/
  sweeps : ℕ → List ℕ

/-- How the transaction of a promotion ends. -/
inductive Outcome where
  | done
  | integrityError
  | otherError
  deriving DecidableEq, Repr

inductive Action where
  | setEnv (env : Env)
  | tick (d : ℕ)
  | createPlan (k : ℕ) (plan : SignalExecutionPlan) (planning : Planning)
  | load (p k : ℕ) (mode : ExecutionMode) (auto : Bool)
  | validate (p : ℕ)
  | readLegs (p : ℕ)
  | commit (p : ℕ) (outcome : Outcome)
  | voidRejected (p : ℕ)
  | command (c k : ℕ) (closeAll : Bool) (ingested : String → Bool)
  | cancelPlan (c : ℕ)
  | cancelJobs (c : ℕ) (locked : ℕ → Bool)
  | sweep (q : ℕ) (threshold : Time) (filter : ReclaimFilter) (limit : ℕ)
  | reclaim (q : ℕ)
  | closePlan (k : ℕ)
  /-- A worker claims or reports a job. -/
  | workJob (j : ℕ) (status : JobStatus) (error : String) (finished : Option Time)

namespace State

def withPromoter (s : State) (p : ℕ) (promoter : Promoter) : State :=
  { s with promoters := Function.update s.promoters p promoter }

def withCommand (s : State) (c : ℕ) (command : Command) : State :=
  { s with commands := Function.update s.commands c command }

def withDb (s : State) (db : Db) : State := { s with db }

end State

/-- A promotion is rejected; a router voids the plan next. -/
def reject (s : State) (p : ℕ) (session : Session) (code : String) : State :=
  s.withPromoter p (if session.auto then .rejected session.planId code else .idle)

/-- Take a copy of a plan; a router takes only a planned one. -/
def load (s : State) (p k : ℕ) (mode : ExecutionMode) (auto : Bool) : State :=
  match s.db.plans.get k with
  | none => s
  | some plan =>
    if auto ∧ plan.status ≠ .planned then s
    else s.withPromoter p (.loaded { planId := k, plan, mode, auto })

/-- Validate the copy of the plan against the rest as it is now. -/
def validateSession (s : State) (p : ℕ) (session : Session) : State :=
  if session.plan.status = .promoted then s.withPromoter p .idle
  else
    match validate s.env s.now session.mode session.plan
        ((legsOf s.db session.planId).map Prod.snd) with
    | some code => reject s p session code
    | none =>
      let symbol := s.env.canAccountTradeSymbol session.plan.accountId session.plan.symbol
      s.withPromoter p (.validated { session with brokerSymbol := symbol.brokerSymbol })

/-- Commit a promotion, or see it fail and read the plan again. -/
def commit (s : State) (p : ℕ) (session : Session) : Outcome → State
  | .done => (s.withDb (promote s.env session s.db)).withPromoter p .idle
  | .otherError => s.withPromoter p .idle
  | .integrityError =>
    if (s.db.plans.get session.planId).any (·.status = .promoted) then s.withPromoter p .idle
    else reject s p session "duplicate_promotion"

/-- A command that meets an order in flight is deferred. -/
def startCommand (s : State) (c k : ℕ) (closeAll : Bool) (ingested : String → Bool) : State :=
  if hasUnresolvedFills s.db k ingested then s
  else s.withCommand c (if closeAll then .withdrawing k else .cancelling k)

/-- Void the plan; one that is planned no more loses its order jobs instead. -/
def applyCancel (s : State) (c k : ℕ) : State :=
  let planned := (s.db.plans.get k).any (·.status = .planned)
  (s.withDb (Promotion.cancelPlan s.db k)).withCommand c
    (if planned then .idle else .withdrawing k)

def step (s : State) : Action → State
  | .setEnv env => { s with env }
  | .tick d => { s with now := s.now + d }
  | .createPlan k plan planning => s.withDb (Promotion.createPlan s.db k plan planning)
  | .load p k mode auto =>
    match s.promoters p with
    | .idle => load s p k mode auto
    | _ => s
  | .validate p =>
    match s.promoters p with
    | .loaded session => validateSession s p session
    | _ => s
  | .readLegs p =>
    match s.promoters p with
    | .validated session => s.withPromoter p (.ready (Promotion.readLegs s.env s.db session))
    | _ => s
  | .commit p outcome =>
    match s.promoters p with
    | .ready session => commit s p session outcome
    | _ => s
  | .voidRejected p =>
    match s.promoters p with
    | .rejected k code => (s.withDb (voidRejectedPlan s.db k code)).withPromoter p .idle
    | _ => s
  | .command c k closeAll ingested =>
    match s.commands c with
    | .idle => startCommand s c k closeAll ingested
    | _ => s
  | .cancelPlan c =>
    match s.commands c with
    | .cancelling k => applyCancel s c k
    | _ => s
  | .cancelJobs c locked =>
    match s.commands c with
    | .withdrawing k => (s.withDb (cancelPendingOrderJobs s.db k locked s.now)).withCommand c .idle
    | _ => s
  | .sweep q threshold filter limit =>
    match orphanedPlannedPlans s.db s.now threshold filter limit with
    | none => s
    | some plans => { s with sweeps := Function.update s.sweeps q plans }
  | .reclaim q =>
    match s.sweeps q with
    | [] => s
    | k :: rest =>
      { s with db := reclaimPlan s.db k, sweeps := Function.update s.sweeps q rest }
  | .closePlan k => s.withDb (Promotion.closePlan s.db k)
  | .workJob j status errorMessage finishedAt =>
    s.withDb { s.db with
      jobs := s.db.jobs.modify j fun job => { job with status, errorMessage, finishedAt } }

/-- Nobody has planned anything yet. -/
def start (env : Env) (now : Time) : State where
  env := env
  now := now
  db := ⟨.empty, .empty, .empty⟩
  promoters := fun _ => .idle
  commands := fun _ => .idle
  sweeps := fun _ => []

/-! ### What a step does -/

/-- The rows are linked, and every session has read legs of its plan. -/
structure Inv (s : State) : Prop where
  linked : Linked s.db
  promoted : JobsPromoted s.db
  session : ∀ p session, (s.promoters p).session? = some session → WellRead s.db session

variable {s : State}

/-- What a step does to the rows: only a commit promotes. -/
inductive Effect (s : State) (db : Db) : Action → Prop
  | promotes (p : ℕ) (session : Session) : s.promoters p = .ready session →
      db = promote s.env session s.db → Effect s db (.commit p .done)
  | keeps (a : Action) : Keeps s.db db →
      (∀ p, a = .commit p .done → ∀ session, s.promoters p ≠ .ready session) → Effect s db a

def Action.commits : Action → Bool
  | .commit _ .done => true
  | _ => false

lemma Effect.of_keeps {db : Db} {a : Action} (ha : a.commits = false) (h : Keeps s.db db) :
    Effect s db a := by
  refine .keeps a h fun p hp => ?_
  rw [hp] at ha
  cases ha

lemma db_load (s : State) (p k : ℕ) (mode : ExecutionMode) (auto : Bool) :
    (load s p k mode auto).db = s.db := by
  unfold load
  cases s.db.plans.get k with
  | none => rfl
  | some plan => dsimp only; split_ifs <;> rfl

lemma db_validateSession (s : State) (p : ℕ) (session : Session) :
    (validateSession s p session).db = s.db := by
  unfold validateSession
  split_ifs
  · rfl
  · dsimp only
    cases validate s.env s.now session.mode session.plan
      ((legsOf s.db session.planId).map Prod.snd) <;> rfl

lemma step_effect (hlink : Linked s.db) (a : Action) : Effect s (step s a).db a := by
  have hrefl : Keeps s.db s.db := .refl hlink
  cases a with
  | setEnv | tick => exact .of_keeps rfl hrefl
  | createPlan k plan planning => exact .of_keeps rfl (keeps_createPlan hlink k plan planning)
  | load p k mode auto =>
    refine .of_keeps rfl ?_
    dsimp only [step]
    cases s.promoters p with
    | idle => rw [db_load]; exact hrefl
    | loaded | validated | ready | rejected => exact hrefl
  | validate p =>
    refine .of_keeps rfl ?_
    dsimp only [step]
    cases s.promoters p with
    | loaded session => rw [db_validateSession]; exact hrefl
    | idle | validated | ready | rejected => exact hrefl
  | readLegs p =>
    refine .of_keeps rfl ?_
    dsimp only [step]
    cases s.promoters p <;> exact hrefl
  | commit p outcome =>
    dsimp only [step]
    cases hp : s.promoters p with
    | ready session =>
      cases outcome with
      | done => exact .promotes p session hp rfl
      | otherError => exact .of_keeps rfl hrefl
      | integrityError =>
        refine .of_keeps rfl ?_
        dsimp only [commit]
        split_ifs <;> exact hrefl
    | idle | loaded | validated | rejected =>
      refine .keeps _ hrefl fun q hq session hready => ?_
      cases hq
      rw [hp] at hready
      cases hready
  | voidRejected p =>
    refine .of_keeps rfl ?_
    dsimp only [step]
    cases s.promoters p with
    | rejected k code => exact keeps_voidRejectedPlan hlink k code
    | idle | loaded | validated | ready => exact hrefl
  | command c k closeAll ingested =>
    refine .of_keeps rfl ?_
    dsimp only [step]
    cases s.commands c with
    | idle => dsimp only [startCommand]; split_ifs <;> exact hrefl
    | cancelling | withdrawing => exact hrefl
  | cancelPlan c =>
    refine .of_keeps rfl ?_
    dsimp only [step]
    cases s.commands c with
    | cancelling k => exact keeps_cancelPlan hlink k
    | idle | withdrawing => exact hrefl
  | cancelJobs c locked =>
    refine .of_keeps rfl ?_
    dsimp only [step]
    cases s.commands c with
    | withdrawing k => exact keeps_cancelPendingOrderJobs hlink k locked s.now
    | idle | cancelling => exact hrefl
  | sweep q threshold filter limit =>
    refine .of_keeps rfl ?_
    dsimp only [step]
    cases orphanedPlannedPlans s.db s.now threshold filter limit <;> exact hrefl
  | reclaim q =>
    refine .of_keeps rfl ?_
    dsimp only [step]
    cases s.sweeps q with
    | nil => exact hrefl
    | cons k rest => exact keeps_reclaimPlan hlink k
  | closePlan k => exact .of_keeps rfl (keeps_closePlan hlink k)
  | workJob j status errorMessage finishedAt =>
    exact .of_keeps rfl (keeps_jobs hlink (payload_modify s.db.jobs j fun _ => rfl))

inductive PlanMoves (s : State) (a : Action) (k : ℕ) :
    Option SignalExecutionPlan → Option SignalExecutionPlan → Prop
  | stays (row : Option SignalExecutionPlan) : PlanMoves s a k row row
  | created (plan : SignalExecutionPlan) : plan.status ≠ .promoted → plan.status ≠ .closed →
      PlanMoves s a k none (some plan)
  | voided (plan : SignalExecutionPlan) (holdReason : String) : plan.status = .planned →
      PlanMoves s a k (some plan) (some { plan with status := .voided, holdReason })
  | promoted (p : ℕ) (session : Session) (plan : SignalExecutionPlan) : a = .commit p .done →
      s.promoters p = .ready session → session.planId = k →
      PlanMoves s a k (some plan) (some { plan with status := .promoted })
  | closed (plan : SignalExecutionPlan) : a = .closePlan k → plan.status = .promoted →
      PlanMoves s a k (some plan) (some { plan with status := .closed })

lemma planMoves_compareAndSet {a : Action} {i : ℕ} {expected : PlanStatus}
    {f : SignalExecutionPlan → SignalExecutionPlan} (k : ℕ)
    (hf : ∀ plan, plan.status = expected → PlanMoves s a i (some plan) (some (f plan))) :
    PlanMoves s a k (s.db.plans.get k) ((compareAndSet s.db i expected f).plans.get k) := by
  rw [compareAndSet, Table.get_modify]
  by_cases hk : k = i
  · subst hk
    rw [if_pos rfl]
    cases s.db.plans.get k with
    | none => exact .stays none
    | some plan =>
      rw [Option.map_some]
      split_ifs with hs
      · exact hf plan hs
      · exact .stays _
  · rw [if_neg hk]
    exact .stays _

lemma planMoves_createPlan {a : Action} (i : ℕ) (plan : SignalExecutionPlan) (planning : Planning)
    (k : ℕ) :
    PlanMoves s a k (s.db.plans.get k) ((createPlan s.db i plan planning).plans.get k) := by
  rw [createPlan]
  split_ifs with hi
  · exact .stays _
  · rw [Table.get_insert _ hi]
    split_ifs with hk
    · rw [hk, Table.get_eq_none_iff.mpr hi]
      refine .created _ ?_ ?_
      · cases planning <;> rintro ⟨⟩
      · cases planning <;> rintro ⟨⟩
    · exact .stays _

theorem plan_step (s : State) (a : Action) (k : ℕ) :
    PlanMoves s a k (s.db.plans.get k) ((step s a).db.plans.get k) := by
  cases a with
  | setEnv | tick | workJob => exact .stays _
  | createPlan i plan planning => exact planMoves_createPlan i plan planning k
  | load p i mode auto =>
    dsimp only [step]
    cases s.promoters p with
    | idle => rw [db_load]; exact .stays _
    | loaded | validated | ready | rejected => exact .stays _
  | validate p =>
    dsimp only [step]
    cases s.promoters p with
    | loaded session => rw [db_validateSession]; exact .stays _
    | idle | validated | ready | rejected => exact .stays _
  | readLegs p =>
    dsimp only [step]
    cases s.promoters p <;> exact .stays _
  | commit p outcome =>
    dsimp only [step]
    cases hp : s.promoters p with
    | idle | loaded | validated | rejected => exact .stays _
    | ready session =>
      cases outcome with
      | otherError => exact .stays _
      | integrityError =>
        dsimp only [commit]
        split_ifs <;> exact .stays _
      | done =>
        show PlanMoves s _ k _ ((promote s.env session s.db).plans.get k)
        rw [get_plans_promote]
        split_ifs with hk
        · cases s.db.plans.get k with
          | none => exact .stays none
          | some plan => exact .promoted p session plan rfl hp hk.symm
        · exact .stays _
  | voidRejected p =>
    dsimp only [step]
    cases s.promoters p with
    | rejected i code => exact planMoves_compareAndSet k fun plan h => .voided plan _ h
    | idle | loaded | validated | ready => exact .stays _
  | command c i closeAll ingested =>
    dsimp only [step]
    cases s.commands c with
    | idle => dsimp only [startCommand]; split_ifs <;> exact .stays _
    | cancelling | withdrawing => exact .stays _
  | cancelPlan c =>
    dsimp only [step]
    cases s.commands c with
    | cancelling i => exact planMoves_compareAndSet k fun plan h => .voided plan _ h
    | idle | withdrawing => exact .stays _
  | cancelJobs c locked =>
    dsimp only [step]
    cases s.commands c <;> exact .stays _
  | sweep q threshold filter limit =>
    dsimp only [step]
    cases orphanedPlannedPlans s.db s.now threshold filter limit <;> exact .stays _
  | reclaim q =>
    dsimp only [step]
    cases s.sweeps q with
    | nil => exact .stays _
    | cons i rest => exact planMoves_compareAndSet k fun plan h => .voided plan _ h
  | closePlan i =>
    refine planMoves_compareAndSet k fun plan h => ?_
    exact .closed plan rfl h

inductive PromoterMoves (s : State) (a : Action) (p : ℕ) : Promoter → Promoter → Prop
  | stays (promoter : Promoter) : PromoterMoves s a p promoter promoter
  /-- It is done, or has been refused. -/
  | leaves (promoter promoter' : Promoter) : promoter'.session? = none →
      PromoterMoves s a p promoter promoter'
  | loads (k : ℕ) (plan : SignalExecutionPlan) (mode : ExecutionMode) (auto : Bool) :
      s.db.plans.get k = some plan →
      PromoterMoves s a p .idle (.loaded { planId := k, plan, mode, auto })
  | passes (session : Session) (brokerSymbol : Option String) : a = .validate p →
      validate s.env s.now session.mode session.plan
        ((legsOf s.db session.planId).map Prod.snd) = none →
      PromoterMoves s a p (.loaded session) (.validated { session with brokerSymbol })
  | reads (session : Session) : (step s a).db = s.db →
      PromoterMoves s a p (.validated session) (.ready (Promotion.readLegs s.env s.db session))

lemma promoterMoves_withPromoter (s' : State) {a : Action} {p q : ℕ} {promoter : Promoter}
    (hs' : s'.promoters = s.promoters)
    (hq : PromoterMoves s a q (s.promoters q) promoter) :
    PromoterMoves s a p (s.promoters p) ((s'.withPromoter q promoter).promoters p) := by
  by_cases hp : p = q
  · subst hp
    rw [show (s'.withPromoter p promoter).promoters p = promoter from Function.update_self ..]
    exact hq
  · rw [show (s'.withPromoter q promoter).promoters p = s'.promoters p from
      Function.update_of_ne hp .., hs']
    exact .stays _

lemma promoterMoves_reject {a : Action} {p q : ℕ} (session : Session) (code : String) :
    PromoterMoves s a p (s.promoters p) ((reject s q session code).promoters p) := by
  refine promoterMoves_withPromoter s rfl (.leaves _ _ ?_)
  split_ifs <;> rfl

theorem promoter_step (s : State) (a : Action) (p : ℕ) :
    PromoterMoves s a p (s.promoters p) ((step s a).promoters p) := by
  cases a with
  | load q k mode auto =>
    dsimp only [step]
    cases hq : s.promoters q with
    | loaded | validated | ready | rejected => exact .stays _
    | idle =>
      dsimp only [load]
      cases hplan : s.db.plans.get k with
      | none => exact .stays _
      | some plan =>
        dsimp only
        split_ifs
        · exact .stays _
        · refine promoterMoves_withPromoter s rfl ?_
          rw [hq]
          exact .loads k plan mode auto hplan
  | validate q =>
    dsimp only [step]
    cases hq : s.promoters q with
    | idle | validated | ready | rejected => exact .stays _
    | loaded session =>
      dsimp only [validateSession]
      split_ifs
      · exact promoterMoves_withPromoter s rfl (.leaves _ _ rfl)
      · cases hval : validate s.env s.now session.mode session.plan
          ((legsOf s.db session.planId).map Prod.snd) with
        | some code => exact promoterMoves_reject session code
        | none =>
          refine promoterMoves_withPromoter s rfl ?_
          rw [hq]
          exact .passes session _ rfl hval
  | readLegs q =>
    have hdb : (step s (.readLegs q)).db = s.db := by
      dsimp only [step]
      cases s.promoters q <;> rfl
    have hstep : PromoterMoves s (.readLegs q) q (s.promoters q)
        ((step s (.readLegs q)).promoters q) := by
      cases hq : s.promoters q with
      | idle | loaded | ready | rejected => simp only [step, hq]; exact .stays _
      | validated session =>
        simp only [step, hq]
        rw [show (s.withPromoter q _).promoters q = _ from Function.update_self ..]
        exact .reads session hdb
    by_cases hp : p = q
    · subst hp
      exact hstep
    · dsimp only [step]
      cases s.promoters q with
      | idle | loaded | ready | rejected => exact .stays _
      | validated session =>
        rw [show (s.withPromoter q _).promoters p = s.promoters p from Function.update_of_ne hp ..]
        exact .stays _
  | commit q outcome =>
    dsimp only [step]
    cases s.promoters q with
    | idle | loaded | validated | rejected => exact .stays _
    | ready session =>
      cases outcome with
      | done => exact promoterMoves_withPromoter (s.withDb _) rfl (.leaves _ _ rfl)
      | otherError => exact promoterMoves_withPromoter s rfl (.leaves _ _ rfl)
      | integrityError =>
        dsimp only [commit]
        split_ifs
        · exact promoterMoves_withPromoter s rfl (.leaves _ _ rfl)
        · exact promoterMoves_reject session _
  | voidRejected q =>
    dsimp only [step]
    cases s.promoters q with
    | idle | loaded | validated | ready => exact .stays _
    | rejected k code =>
      exact promoterMoves_withPromoter (s.withDb _) rfl (.leaves _ _ rfl)
  | command c k closeAll ingested =>
    dsimp only [step]
    cases s.commands c with
    | idle => dsimp only [startCommand]; split_ifs <;> exact .stays _
    | cancelling | withdrawing => exact .stays _
  | cancelPlan c =>
    dsimp only [step]
    cases s.commands c <;> exact .stays _
  | cancelJobs c locked =>
    dsimp only [step]
    cases s.commands c <;> exact .stays _
  | sweep q threshold filter limit =>
    dsimp only [step]
    cases orphanedPlannedPlans s.db s.now threshold filter limit <;> exact .stays _
  | reclaim q =>
    dsimp only [step]
    cases s.sweeps q <;> exact .stays _
  | _ => exact .stays _

section Sessions

variable {a : Action} {p : ℕ} {promoter promoter' : Promoter} {session : Session}

lemma PromoterMoves.origin (h : PromoterMoves s a p promoter promoter')
    (hsession : promoter'.session? = some session) :
    s.db.plans.get session.planId = some session.plan ∧ session.legs = [] ∨
      ∃ session₀, promoter.session? = some session₀ ∧ session₀.planId = session.planId ∧
        session₀.plan = session.plan ∧
        (session.legs = session₀.legs ∨ session = Promotion.readLegs s.env s.db session₀) := by
  cases h with
  | stays => exact .inr ⟨session, hsession, rfl, rfl, .inl rfl⟩
  | leaves _ _ hnone => rw [hnone] at hsession; cases hsession
  | loads k plan mode auto hplan => cases hsession; exact .inl ⟨hplan, rfl⟩
  | passes session₀ => cases hsession; exact .inr ⟨session₀, rfl, rfl, rfl, .inl rfl⟩
  | reads session₀ => cases hsession; exact .inr ⟨session₀, rfl, rfl, rfl, .inr rfl⟩

lemma PromoterMoves.ready (h : PromoterMoves s a p promoter (.ready session)) :
    promoter = .ready session ∨
      ∃ session₀, session = Promotion.readLegs s.env s.db session₀ ∧ (step s a).db = s.db := by
  cases h with
  | stays => exact .inl rfl
  | leaves _ _ hnone => cases hnone
  | reads session₀ hdb => exact .inr ⟨session₀, rfl, hdb⟩

end Sessions

lemma session_of_step (hs : Inv s) (a : Action) {p : ℕ} {session : Session}
    (h : ((step s a).promoters p).session? = some session) : WellRead s.db session := by
  rcases (promoter_step s a p).origin h with ⟨hplan, hlegs⟩ | ⟨session₀, h₀, hid, -, hlegs⟩
  · exact wellRead_nil (Table.mem_keys_of_get hplan) hlegs
  · have hread := hs.session p session₀ h₀
    rcases hlegs with hlegs | rfl
    · exact ⟨hid ▸ hread.plan, by rw [hlegs]; exact hread.nodup, by
        rw [hlegs, ← hid]; exact hread.legs⟩
    · exact wellRead_readLegs s.env hread.plan

/-! ### The invariant -/

lemma inv_start (env : Env) (now : Time) : Inv (start env now) where
  linked :=
    { legPlan := by intro l leg h; cases h
      legKey := by intro l l' leg leg' h; cases h
      legJob := by intro l leg j h; cases h
      jobLeg := by intro j job h; cases h }
  promoted := by intro l leg h; cases h
  session := by intro p session h; cases h

theorem inv_step (hs : Inv s) (a : Action) : Inv (step s a) := by
  have hsession : ∀ p session, ((step s a).promoters p).session? = some session →
      WellRead s.db session := fun _ _ h => session_of_step hs a h
  have heff := step_effect hs.linked a
  generalize step s a = s' at hsession heff
  cases heff with
  | promotes p session hp hdb =>
    have hread : WellRead s.db session := hs.session p session (by rw [hp]; rfl)
    constructor
    · rw [hdb]; exact linked_promote hs.linked hread
    · rw [hdb]; exact jobsPromoted_promote hs.promoted hread
    · rw [hdb]; exact fun q session' h => wellRead_promote (hsession q session' h)
  | keeps _ hkeeps =>
    exact ⟨hkeeps.linked hs.linked, hkeeps.jobsPromoted hs.promoted,
      fun q session' h => hkeeps.wellRead (hsession q session' h)⟩

/-! ### Promoted once -/

/-- When a promotion commits, its plan has not been voided, and no leg that its session has seen
without a job has received one since. -/
def Fresh (s : State) : Action → Prop
  | .commit p .done =>
    match s.promoters p with
    | .ready session => ¬ Voided s.db session.planId ∧ StillFree s.db session.legs
    | _ => True
  | _ => True

/-- When a promotion commits, no leg that its session has seen without a job has received one
since. -/
def FreeLegs (s : State) : Action → Prop
  | .commit p .done =>
    match s.promoters p with
    | .ready session => StillFree s.db session.legs
    | _ => True
  | _ => True

instance (db : Db) (es : List (ℕ × ProposedOrderLeg)) : Decidable (StillFree db es) :=
  inferInstanceAs (Decidable (∀ e ∈ es, e.2.executionJobId = none → ∀ leg ∈ db.legs.get e.1,
    leg.executionJobId = none))

instance (s : State) : DecidablePred (FreeLegs s)
  | .commit p .done =>
    match h : s.promoters p with
    | .ready session => decidable_of_iff (StillFree s.db session.legs) (by simp only [FreeLegs, h])
    | .idle | .loaded _ | .validated _ | .rejected .. => .isTrue (by simp only [FreeLegs, h])
  | .commit _ .integrityError | .commit _ .otherError | .setEnv _ | .tick _ | .createPlan ..
  | .load .. | .validate _ | .readLegs _ | .voidRejected _ | .command .. | .cancelPlan _
  | .cancelJobs .. | .sweep .. | .reclaim _ | .closePlan _ | .workJob .. => .isTrue trivial

instance (s : State) : DecidablePred (Fresh s)
  | .commit p .done =>
    match h : s.promoters p with
    | .ready session =>
      decidable_of_iff (¬ Voided s.db session.planId ∧ StillFree s.db session.legs)
        (by simp only [Fresh, h])
    | .idle | .loaded _ | .validated _ | .rejected .. => .isTrue (by simp only [Fresh, h])
  | .commit _ .integrityError | .commit _ .otherError | .setEnv _ | .tick _ | .createPlan ..
  | .load .. | .validate _ | .readLegs _ | .voidRejected _ | .command .. | .cancelPlan _
  | .cancelJobs .. | .sweep .. | .reclaim _ | .closePlan _ | .workJob .. => .isTrue trivial

lemma Fresh.freeLegs {a : Action} (h : Fresh s a) : FreeLegs s a := by
  unfold Fresh at h
  unfold FreeLegs
  split
  · rename_i p
    dsimp only at h
    cases hp : s.promoters p with
    | ready session => rw [hp] at h; exact h.2
    | idle | loaded | validated | rejected => trivial
  · trivial

lemma oneJobPerLeg_step (hs : Inv s) (hone : OneJobPerLeg s.db) {a : Action} (ha : FreeLegs s a) :
    OneJobPerLeg (step s a).db := by
  have heff := step_effect hs.linked a
  generalize step s a = s' at heff
  cases heff with
  | promotes p session hp hdb =>
    have hread : WellRead s.db session := hs.session p session (by rw [hp]; rfl)
    simp only [FreeLegs, hp] at ha
    rw [hdb]
    exact oneJobPerLeg_foldl hs.linked hone hread.nodup hread.legs ha
  | keeps _ hkeeps => exact hkeeps.oneJobPerLeg hone

lemma legs_foldl_free (env : Env) (session : Session) {es : List (ℕ × ProposedOrderLeg)} {db : Db}
    (hnodup : (es.map Prod.fst).Nodup) (hfree : StillFree db es) {l : ℕ} {leg : ProposedOrderLeg}
    (hleg : db.legs.get l = some leg) :
    ∃ executionJobId status, (es.foldl (promoteLeg env session) db).legs.get l =
        some { leg with executionJobId, status } ∧
      (leg.executionJobId ≠ none →
        executionJobId = leg.executionJobId ∧ status = leg.status) := by
  induction es generalizing db leg with
  | nil => exact ⟨leg.executionJobId, leg.status, hleg, fun _ => ⟨rfl, rfl⟩⟩
  | cons e es ih =>
    rw [List.map_cons, List.nodup_cons] at hnodup
    have hne : ∀ e' ∈ es, e'.1 ≠ e.1 := by
      intro e' he' heq
      exact hnodup.1 (heq ▸ List.mem_map_of_mem he')
    have hfree' : StillFree (promoteLeg env session db e) es :=
      StillFree.promoteLeg (fun e' he' => hfree e' (List.mem_cons_of_mem e he')) hne
    cases hseen : e.2.executionJobId with
    | some j =>
      have hsame : promoteLeg env session db e = db := by simp only [promoteLeg, hseen]
      rw [List.foldl_cons]
      rw [hsame] at hfree' ⊢
      exact ih hnodup.2 hfree' hleg
    | none =>
      rw [List.foldl_cons]
      by_cases hl : l = e.1
      · subst hl
        have hnone : leg.executionJobId = none := hfree e List.mem_cons_self hseen leg hleg
        have hnew : (promoteLeg env session db e).legs.get e.1 =
            some { leg with executionJobId := some db.jobs.fresh, status := .promoted } := by
          simp only [promoteLeg, hseen, Table.get_modify_self, hleg, Option.map_some]
        obtain ⟨j, status, h, -⟩ := ih hnodup.2 hfree' hnew
        exact ⟨j, status, h, fun hsome => absurd hnone hsome⟩
      · refine ih hnodup.2 hfree' ?_
        simpa only [promoteLeg, hseen, Table.get_modify_of_ne _ _ hl] using hleg

lemma leg_step (hs : Inv s) {a : Action} (ha : FreeLegs s a) {l : ℕ} {leg : ProposedOrderLeg}
    (hleg : s.db.legs.get l = some leg) :
    ∃ executionJobId status, (step s a).db.legs.get l = some { leg with executionJobId, status } ∧
      (leg.executionJobId ≠ none →
        executionJobId = leg.executionJobId ∧ status = leg.status) := by
  have heff := step_effect hs.linked a
  generalize step s a = s' at heff
  cases heff with
  | promotes p session hp hdb =>
    have hread : WellRead s.db session := hs.session p session (by rw [hp]; rfl)
    simp only [FreeLegs, hp] at ha
    rw [hdb]
    exact legs_foldl_free s.env session hread.nodup ha hleg
  | keeps _ hkeeps =>
    exact ⟨leg.executionJobId, leg.status, hkeeps.leg l leg hleg, fun _ => ⟨rfl, rfl⟩⟩

lemma of_leg_step (hs : Inv s) (a : Action) {k l : ℕ} {leg' : ProposedOrderLeg}
    (hk : k ∈ s.db.plans.keys) (hleg' : (step s a).db.legs.get l = some leg')
    (hplan : leg'.planId = k) : ∃ leg, s.db.legs.get l = some leg ∧ leg.planId = k := by
  have heff := step_effect hs.linked a
  generalize step s a = s' at heff hleg'
  cases heff with
  | promotes p session hp hdb =>
    have hread : WellRead s.db session := hs.session p session (by rw [hp]; rfl)
    rw [hdb] at hleg'
    obtain ⟨leg, hleg, hsame, -⟩ := legs_of_foldl hread.legs hleg'
    exact ⟨leg, hleg, hsame.symm.trans hplan⟩
  | keeps _ hkeeps =>
    rcases hkeeps.newLeg l leg' hleg' with hold | ⟨-, hno, -⟩
    · exact ⟨leg', hold, hplan⟩
    · exact absurd (hplan ▸ hk) hno

/-! ### Plans that are promoted as a whole -/

lemma job_leg_step (hs : Inv s) (a : Action) {l : ℕ} {leg : ProposedOrderLeg}
    (hleg : s.db.legs.get l = some leg) :
    ∃ leg', (step s a).db.legs.get l = some leg' ∧ leg'.planId = leg.planId ∧
      (leg.executionJobId ≠ none → leg'.executionJobId ≠ none) := by
  have heff := step_effect hs.linked a
  generalize step s a = s' at heff
  cases heff with
  | promotes p session hp hdb =>
    obtain ⟨leg', hleg', hplan, -, hjob⟩ := legs_foldl s.env session session.legs hleg
    rw [hdb]
    exact ⟨leg', hleg', hplan, hjob⟩
  | keeps _ hkeeps => exact ⟨leg, hkeeps.leg l leg hleg, rfl, id⟩

lemma job_of_foldl {env : Env} {session : Session} {es : List (ℕ × ProposedOrderLeg)} {db : Db}
    {e : ℕ × ProposedOrderLeg} (he : e ∈ es) {leg : ProposedOrderLeg}
    (hleg : db.legs.get e.1 = some leg)
    (hseen : e.2.executionJobId ≠ none → leg.executionJobId ≠ none) {leg' : ProposedOrderLeg}
    (hleg' : (es.foldl (promoteLeg env session) db).legs.get e.1 = some leg') :
    leg'.executionJobId ≠ none := by
  obtain ⟨pre, post, rfl⟩ := List.append_of_mem he
  rw [List.foldl_append, List.foldl_cons] at hleg'
  obtain ⟨leg₁, hleg₁, -, -, hkept⟩ := legs_foldl env session pre hleg
  generalize pre.foldl (promoteLeg env session) db = db₁ at hleg₁ hleg'
  have hmid : ∃ leg₂, (promoteLeg env session db₁ e).legs.get e.1 = some leg₂ ∧
      leg₂.executionJobId ≠ none := by
    cases hjob : e.2.executionJobId with
    | some j =>
      have hsame : promoteLeg env session db₁ e = db₁ := by simp only [promoteLeg, hjob]
      rw [hsame]
      exact ⟨leg₁, hleg₁, hkept (hseen (by rw [hjob]; exact Option.some_ne_none j))⟩
    | none =>
      refine ⟨{ leg₁ with executionJobId := some db₁.jobs.fresh, status := .promoted }, ?_,
        Option.some_ne_none _⟩
      simp only [promoteLeg, hjob, Table.get_modify_self, hleg₁, Option.map_some]
  obtain ⟨leg₂, hleg₂, hsome⟩ := hmid
  obtain ⟨leg₃, hleg₃, -, -, hlast⟩ := legs_foldl env session post hleg₂
  rw [hleg'] at hleg₃
  cases hleg₃
  exact hlast hsome

/-- A promotion that is ready has read all the legs of its plan, and a plan that is promoted has a
job for each of its legs. -/
structure Whole (s : State) : Prop where
  ready : ∀ p session, s.promoters p = .ready session → ∀ l leg, s.db.legs.get l = some leg →
    leg.planId = session.planId → ∃ e ∈ session.legs, e.1 = l
  seen : ∀ p session, s.promoters p = .ready session → ∀ e ∈ session.legs,
    e.2.executionJobId ≠ none → ∀ leg, s.db.legs.get e.1 = some leg → leg.executionJobId ≠ none
  promoted : ∀ k plan, s.db.plans.get k = some plan →
    plan.status = .promoted ∨ plan.status = .closed →
      ∀ l leg, s.db.legs.get l = some leg → leg.planId = k → leg.executionJobId ≠ none

lemma whole_start (env : Env) (now : Time) : Whole (start env now) where
  ready := by intro p session h; cases h
  seen := by intro p session h; cases h
  promoted := by intro k plan h; cases h

theorem whole_step (hs : Inv s) (h : Whole s) (a : Action) : Whole (step s a) where
  ready := by
    intro p session hp l leg' hleg' hplan
    rcases (hp ▸ promoter_step s a p).ready with hold | ⟨session', rfl, hdb⟩
    · have hk : session.planId ∈ s.db.plans.keys := (hs.session p session (by rw [hold]; rfl)).plan
      obtain ⟨leg, hleg, hplan'⟩ := of_leg_step hs a hk hleg' hplan
      exact h.ready p session hold l leg hleg hplan'
    · rw [hdb] at hleg'
      exact ⟨(l, leg'), mem_legsOf.mpr ⟨hleg', hplan⟩, rfl⟩
  seen := by
    intro p session hp e he hseen leg' hleg'
    rcases (hp ▸ promoter_step s a p).ready with hold | ⟨session', rfl, hdb⟩
    · obtain ⟨leg, hleg, -, -⟩ := (hs.session p session (by rw [hold]; rfl)).legs e he
      obtain ⟨leg'', hleg'', -, hjob⟩ := job_leg_step hs a hleg
      rw [hleg'] at hleg''
      cases hleg''
      exact hjob (h.seen p session hold e he hseen leg hleg)
    · rw [hdb, (mem_legsOf.mp he).1] at hleg'
      cases hleg'
      exact hseen
  promoted := by
    intro k plan' hplan' hstatus l leg' hleg' hk
    have hmoves := plan_step s a k
    rw [hplan'] at hmoves
    -- a leg of a plan that has had its jobs already
    have hold : ∀ plan, s.db.plans.get k = some plan →
        plan.status = .promoted ∨ plan.status = .closed → leg'.executionJobId ≠ none := by
      intro plan hplan hs'
      obtain ⟨leg, hleg, hp⟩ := of_leg_step hs a (Table.mem_keys_of_get hplan) hleg' hk
      obtain ⟨leg'', hleg'', -, hjob⟩ := job_leg_step hs a hleg
      rw [hleg'] at hleg''
      cases hleg''
      exact hjob (h.promoted k plan hplan hs' l leg hleg hp)
    generalize hrow : s.db.plans.get k = row at hmoves
    cases hmoves with
    | stays => exact hold plan' hrow hstatus
    | created _ hnp hnc => rcases hstatus with hst | hst <;> contradiction
    | voided => rcases hstatus with hst | hst <;> cases hst
    | closed plan _ hpromoted => exact hold plan hrow (.inl hpromoted)
    | promoted p session plan ha hp hplan =>
      subst hplan
      obtain ⟨leg, hleg, hleg_plan⟩ := of_leg_step hs a (Table.mem_keys_of_get hrow) hleg' hk
      obtain ⟨e, he, rfl⟩ := h.ready p session hp l leg hleg hleg_plan
      have hdb : (step s a).db = promote s.env session s.db := by
        rw [ha, step, hp]
        rfl
      rw [hdb] at hleg'
      exact job_of_foldl he hleg (fun hseen => h.seen p session hp e he hseen leg hleg) hleg'

/-! ### Accounts -/

def SessionAccounts (s : State) : Prop :=
  ∀ p session, (s.promoters p).session? = some session → ∀ plan,
    s.db.plans.get session.planId = some plan → session.plan.accountId = plan.accountId

lemma plan_account_step (a : Action) {k : ℕ} {plan : SignalExecutionPlan}
    (hplan : s.db.plans.get k = some plan) :
    ∃ plan', (step s a).db.plans.get k = some plan' ∧ plan'.accountId = plan.accountId := by
  have hmoves := plan_step s a k
  rw [hplan] at hmoves
  generalize (step s a).db.plans.get k = row' at hmoves
  cases hmoves <;> exact ⟨_, rfl, rfl⟩

lemma plan_account_before (a : Action) {k : ℕ} (hk : k ∈ s.db.plans.keys)
    {plan' : SignalExecutionPlan} (hplan' : (step s a).db.plans.get k = some plan') :
    ∃ plan, s.db.plans.get k = some plan ∧ plan'.accountId = plan.accountId := by
  obtain ⟨plan, hplan⟩ := Table.get_of_mem_keys hk
  obtain ⟨plan'', hplan'', haccount⟩ := plan_account_step a hplan
  rw [hplan'] at hplan''
  cases hplan''
  exact ⟨plan, hplan, haccount⟩

lemma sessionAccounts_step (hs : Inv s) (h : SessionAccounts s) (a : Action) :
    SessionAccounts (step s a) := by
  intro p session hsession plan' hplan'
  rcases (promoter_step s a p).origin hsession with ⟨hplan, -⟩ | ⟨session₀, h₀, hid, heq, -⟩
  · obtain ⟨plan'', hplan'', haccount⟩ := plan_account_step a hplan
    rw [hplan'] at hplan''
    cases hplan''
    exact haccount.symm
  · have hk : session.planId ∈ s.db.plans.keys := hid ▸ (hs.session p session₀ h₀).plan
    obtain ⟨plan, hplan, haccount⟩ := plan_account_before a hk hplan'
    rw [haccount, ← heq]
    exact h p session₀ h₀ plan (hid ▸ hplan)

lemma voided_step (hs : Inv s) {a : Action} (ha : Fresh s a) {k : ℕ} (hk : Voided s.db k) :
    Voided (step s a).db k := by
  have heff := step_effect hs.linked a
  generalize step s a = s' at heff
  cases heff with
  | promotes p session hp hdb =>
    simp only [Fresh, hp] at ha
    rw [hdb]
    exact voided_promote hk fun h => ha.1 (h ▸ hk)
  | keeps _ hkeeps => exact hkeeps.voided hk

lemma not_fresh_step (hs : Inv s) {a : Action} (ha : ¬ Fresh s a) :
    (∃ k, Voided s.db k ∧ ¬ Voided (step s a).db k) ∨ ¬ OneJobPerLeg (step s a).db := by
  have heff := step_effect hs.linked a
  generalize step s a = s' at heff
  cases heff with
  | promotes p session hp hdb =>
    have hread : WellRead s.db session := hs.session p session (by rw [hp]; rfl)
    simp only [Fresh, hp] at ha
    rw [hdb]
    by_cases hk : Voided s.db session.planId
    · exact .inl ⟨session.planId, hk, not_voided_promote⟩
    · have hfree : ¬ StillFree s.db session.legs := fun h => ha ⟨hk, h⟩
      simp only [StillFree, not_forall] at hfree
      obtain ⟨e, he, hseen, leg, hleg, hjob⟩ := hfree
      exact .inr (not_oneJobPerLeg_foldl hs.linked hread.legs he hseen hleg hjob)
  | keeps _ _ hno =>
    exfalso
    refine ha ?_
    unfold Fresh
    split
    · rename_i p
      cases hp : s.promoters p with
      | ready session => exact absurd hp (hno p rfl session)
      | idle | loaded | validated | rejected => trivial
    · trivial

/-- A run promotes every plan once: no leg ever has two order jobs, a plan that has been voided
never has any, and it stays voided. -/
structure PromotedOnce (s : State) (as : List Action) : Prop where
  oneJob : ∀ bs, bs <+: as → OneJobPerLeg (run step s bs).db
  voidedNoJobs : ∀ pre bs k, pre <+: bs → bs <+: as → Voided (run step s pre).db k →
    NoJobs (run step s bs).db k
  staysVoided : ∀ pre bs k, pre <+: bs → bs <+: as → Voided (run step s pre).db k →
    Voided (run step s bs).db k

/-- Plans are promoted once in exactly the runs in which every commit is fresh. -/
theorem promotedOnce_iff (env : Env) (now : Time) (as : List Action) :
    PromotedOnce (start env now) as ↔ StepsMeet step Fresh (start env now) as := by
  have hinv : ∀ bs, Inv (run step (start env now) bs) :=
    run_invariant (P := Inv) (fun _ a hs => inv_step hs a) (inv_start env now)
  constructor
  · intro h
    rw [stepsMeet_iff]
    rintro pre a post rfl
    by_contra hfresh
    have hpre : pre ++ [a] <+: pre ++ a :: post := ⟨post, by simp⟩
    rcases not_fresh_step (hinv pre) hfresh with ⟨k, hk, hno⟩ | hno
    · have hvoided := h.staysVoided pre (pre ++ [a]) k (List.prefix_append pre [a]) hpre hk
      rw [run_concat] at hvoided
      exact hno hvoided
    · have hone := h.oneJob (pre ++ [a]) hpre
      rw [run_concat] at hone
      exact hno hone
  · intro h
    have hmeets : ∀ bs, bs <+: as → StepsMeet step Fresh (start env now) bs := by
      rintro bs ⟨cs, rfl⟩
      exact (stepsMeet_append.mp h).1
    have hstays : ∀ pre bs k, pre <+: bs → bs <+: as → Voided (run step (start env now) pre).db k →
        Voided (run step (start env now) bs).db k := by
      rintro pre bs k ⟨mid, rfl⟩ hbs hk
      rw [run_append]
      have hmid := (stepsMeet_append.mp (hmeets _ hbs)).2
      refine (run_invariant_of_meets (P := fun s => Inv s ∧ Voided s.db k) ?_ ⟨hinv pre, hk⟩ hmid).2
      exact fun s a hs ha => ⟨inv_step hs.1 a, voided_step hs.1 ha hs.2⟩
    refine ⟨fun bs hbs => ?_, fun pre bs k hpre hbs hk => ?_, hstays⟩
    · have hone : OneJobPerLeg (start env now).db := by intro j j' job job' h; cases h
      refine (run_invariant_of_meets (P := fun s => Inv s ∧ OneJobPerLeg s.db) ?_
        ⟨inv_start env now, hone⟩ (hmeets bs hbs)).2
      exact fun s a hs ha => ⟨inv_step hs.1 a, oneJobPerLeg_step hs.1 hs.2 ha.freeLegs⟩
    · exact noJobs_of_voided (hinv bs).linked (hinv bs).promoted (hstays pre bs k hpre hbs hk)

/-! ### Two promotions that are not fresh -/

def sampleAccount : TradingAccount where
  userId := 1
  accountNumber := "100"
  brokerServer := some { serverName := "Demo", environment := .demo }
  isDemo := true
  isActive := true
  terminalNodeId := some 1

def sampleEnv : Env where
  signalExecutionMode := .demo
  killReason := none
  sourceConfig := fun _ => some
    { autoDemoExecutionEnabled := true, maxLotPerLeg := 2 / 100, maxTotalLot := 6 / 100 }
  accounts := fun _ => sampleAccount
  liveExecutionPermitted := fun _ => false
  executionGateRefusal := fun _ => none
  isBrokerPaused := fun _ => false
  canAccountTradeSymbol := fun _ symbol =>
    { accepted := true, reason := "", brokerSymbol := some symbol }
  promotionRisk := fun _ _ => none
  symbolConflictPolicyEnabled := false
  symbolConflict := fun _ => none
  dualWriteEnabled := false
  magicSendEnabled := false
  planAssignment := fun _ => none
  windowsUsername := fun _ => some "worker"

def samplePlan : SignalExecutionPlan where
  accountId := 1
  source := "wayond"
  symbol := "XAUUSD"
  direction := "BUY"
  stopLoss := "2300"
  isDemo := true
  signalTimestamp := some 0
  createdAt := 0
  correlationId := "c1"
  status := .planned

/-- Two promoters read the leg of a plan before either of them has committed. -/
def bothReadFirst : List Action :=
  [.createPlan 1 samplePlan (.planned [("2310", 1 / 100)]), .load 0 1 .demo true,
    .load 1 1 .demo true, .validate 0, .validate 1, .readLegs 0, .readLegs 1, .commit 0 .done,
    .commit 1 .done]

/-- The provider cancels a plan while a promoter holds its copy. -/
def cancelledMeanwhile : List Action :=
  [.createPlan 1 samplePlan (.planned [("2310", 1 / 100)]), .load 0 1 .demo true,
    .command 0 1 false (fun _ => false), .cancelPlan 0, .validate 0, .readLegs 0, .commit 0 .done]

/-- The leg gets two jobs in the first run, and the voided plan is promoted in the second one. -/
theorem promotedOnce_broken :
    ¬ PromotedOnce (start sampleEnv 0) bothReadFirst ∧
      ¬ PromotedOnce (start sampleEnv 0) cancelledMeanwhile := by
  constructor
  · intro h
    have hone := h.oneJob bothReadFirst (List.prefix_refl _)
    have hjobs : ∀ j ∈ [1, 2], ((run step (start sampleEnv 0) bothReadFirst).db.jobs.get j).map
        (fun job => (job.payload.planId, job.payload.legIndex)) = some (1, 1) := by
      decide +kernel
    obtain ⟨job, hjob, hkey⟩ := Option.map_eq_some_iff.mp (hjobs 1 (by decide))
    obtain ⟨job', hjob', hkey'⟩ := Option.map_eq_some_iff.mp (hjobs 2 (by decide))
    have hkeys := Prod.mk.inj (hkey.trans hkey'.symm)
    exact absurd (hone 1 2 job job' hjob hjob' hkeys.1 hkeys.2) (by decide)
  · intro h
    have hvoided : Voided (run step (start sampleEnv 0) (cancelledMeanwhile.take 4)).db 1 := by
      decide +kernel
    have hstays := h.staysVoided _ cancelledMeanwhile 1 (List.take_prefix 4 _)
      (List.prefix_refl _) hvoided
    have hpromoted : ¬ Voided (run step (start sampleEnv 0) cancelledMeanwhile).db 1 := by
      decide +kernel
    exact hpromoted hstays

end Promotion
end GuvFX
