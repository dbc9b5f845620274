/-
# Decisions about a pending signal

A signal that has been taken in waits for a decision.  Reviewers approve or reject it, from the admin or
through the services, and the auto-router approves it by itself when everything is armed; then it plans
the signal for each of its destinations.  An approval and a rejection are both one transaction, which
writes the four fields of the decision and an audit row.

Neither of them looks at the status that it overwrites.  The admin selects the rows that are pending, and
the router refreshes its copy, but both do so before the save.  A decision that is committed in between is
overwritten, and the router goes on to plan a signal that a human has rejected.
-/
import GuvFX.Execution.Promotion
import GuvFX.Lib.Runs

namespace GuvFX
namespace ApprovalDecisions

open Runs
open Promotion (PlanStatus)

/-! ### Records -/

inductive Status where
  | pendingApproval
  | approved
  | rejected
  | expired
  | quarantined
  deriving DecidableEq, Repr

structure PendingSignalApproval where
  status : Status
  sourceEdited : Bool
  reviewer : Option ℕ := none
  reviewedAt : Option Time := none
  reviewNotes : String := ""
  deriving DecidableEq, Repr

inductive Event where
  | signalApproved
  | signalRejected
  | approvalDenied
  | autoRouteDeferred
  deriving DecidableEq, Repr

structure SignalAuditEvent where
  actor : Option ℕ
  event : Event
  detail : List (String × String)
  deriving DecidableEq, Repr

structure SignalExecutionPlan where
  accountId : ℕ
  status : PlanStatus
  deriving DecidableEq, Repr

structure Reviewer where
  pk : ℕ
  username : String
  deriving DecidableEq, Repr

inductive Decision where
  | approve
  | reject
  deriving DecidableEq, Repr

def Decision.status : Decision → Status
  | .approve => .approved
  | .reject => .rejected

def Decision.event : Decision → Event
  | .approve => .signalApproved
  | .reject => .signalRejected

def Decision.name : Decision → String
  | .approve => "approve"
  | .reject => "reject"

def Decision.adminNotes : Decision → String
  | .approve => "Approved via admin (shadow)."
  | .reject => "Rejected via admin."

inductive Tier where
  | autoShadow
  | autoDemo
  deriving DecidableEq, Repr

def Tier.label : Tier → String
  | .autoShadow => "auto-shadow"
  | .autoDemo => "auto-demo"

/-- What the router has resolved before it approves. -/
structure Route where
  tier : Tier
  actor : Reviewer
  targets : List ℕ
  deriving DecidableEq, Repr

/-- A call of `approve` or `reject`; the one of the router goes on to plan. -/
structure Review where
  decision : Decision
  reviewer : Option Reviewer
  notes : String
  route : Option Route := none
  deriving DecidableEq, Repr

/-- How far a caller has come. -/
inductive Place where
  | idle
  /-- An admin action, before its query for pending rows. -/
  | selecting (decision : Decision) (reviewer : Reviewer)
  /-- In `approve` or `reject`, before the permission is checked. -/
  | called (r : Review)
  /-- In the transaction. -/
  | permitted (r : Review)
  | armed (tier : Tier)
  | resolved (route : Route)
  | operator (accountId : ℕ)
  /-- Planning for the accounts that are left; `status` is that of the caller's copy. -/
  | planning (tier : Option Tier) (status : Status) (targets : List ℕ)
  deriving DecidableEq, Repr

/-- The approval, its audits and plans, and the calls. -/
structure State where
  row : PendingSignalApproval
  audits : List SignalAuditEvent := []
  plans : List SignalExecutionPlan := []
  calls : ℕ → Place := fun _ => .idle

/-- What the gates of the planning after that of the status lead to. -/
inductive Outcome where
  | rejected (code : String)
  | made (status : PlanStatus)
  deriving DecidableEq, Repr

inductive Action where
  | edit
  | review (p : ℕ) (decision : Decision) (reviewer : Option Reviewer) (notes : String)
  | adminAction (p : ℕ) (decision : Decision) (reviewer : Reviewer)
  | select (p : ℕ)
  | permit (p : ℕ) (canReview : Bool)
  | save (p : ℕ) (now : Time)
  | route (p : ℕ) (mode : Except String Tier)
  | resolve (p : ℕ) (actor : Option Reviewer) (targets : List ℕ)
  | refresh (p : ℕ)
  | operate (p : ℕ) (accountId : ℕ)
  | load (p : ℕ)
  | plan (p : ℕ) (outcome : Outcome)
  /-- The caller's next call raises an exception of the type `exc`. -/
  | fail (p : ℕ) (exc : String)

namespace State

def goto (s : State) (p : ℕ) (place : Place) : State :=
  { s with calls := Function.update s.calls p place }

def audit (s : State) (actor : Option ℕ) (event : Event) (detail : List (String × String)) : State :=
  { s with audits := s.audits ++ [⟨actor, event, detail⟩] }

def recordDeferral (s : State) (reason : String) : State :=
  s.audit none .autoRouteDeferred [("reason", reason)]

/-! ### A decision -/

/-- `_require_reviewer`: `canReview` is what the permission check finds for a reviewer. -/
def requireReviewer (s : State) (p : ℕ) (r : Review) (canReview : Bool) : State :=
  match r.reviewer, canReview with
  | some _, true => s.goto p (.permitted r)
  | reviewer, _ =>
    let denied := s.audit (reviewer.map (·.pk)) .approvalDenied
      [("action", r.decision.name), ("reviewer", (reviewer.map (·.username)).getD "(none)")]
    match r.route with
    | none => denied.goto p .idle
    | some route =>
      (denied.recordDeferral (route.tier.label ++ "_error:ReviewPermissionDenied")).goto p .idle

/-- Where the router goes on with the targets that are left. -/
def next (tier : Option Tier) (status : Status) : List ℕ → Place
  | [] => .idle
  | targets => .planning tier status targets

/-- The transaction of `approve` and `reject`; the router keeps the approved copy. -/
def decide (s : State) (p : ℕ) (r : Review) (now : Time) : State :=
  let row := { s.row with
    status := r.decision.status
    reviewer := r.reviewer.map (·.pk)
    reviewedAt := some now
    reviewNotes := r.notes }
  let saved := { s with row }
  (saved.audit (r.reviewer.map (·.pk)) r.decision.event [("notes", r.notes)]).goto p
    (match r.route with
      | none => .idle
      | some route => next (some route.tier) r.decision.status route.targets)

/-! ### The router -/

/-- `effective_mode`, which refreshes the edited flag and then reads its other gates: `mode` is what they
lead to. -/
def effectiveMode (s : State) (p : ℕ) (mode : Except String Tier) : State :=
  if s.row.sourceEdited then s.recordDeferral "edited_signal"
  else match mode with
    | .error reason => s.recordDeferral reason
    | .ok tier => s.goto p (.armed tier)

/-- The status and the edited flag are refreshed before the approval. -/
def refreshFromDb (s : State) (p : ℕ) (route : Route) : State :=
  if s.row.sourceEdited then s.goto p .idle
  else match s.row.status with
    | .pendingApproval =>
      s.goto p (.called ⟨.approve, some route.actor, route.tier.label ++ " (system)", some route⟩)
    -- approved by somebody else: their decision stays, and the signal is planned
    | .approved => s.goto p (next (some route.tier) .approved route.targets)
    | _ => s.goto p .idle

def planRejected (s : State) (tier : Option Tier) (code : String) : State :=
  match tier with
  | none => s
  | some tier => s.recordDeferral (tier.label ++ "_rejected:" ++ code)

/-- `plan_demo_execution` for an account, by a caller whose copy has the status `status`. -/
def planDemoExecution (s : State) (tier : Option Tier) (status : Status) (accountId : ℕ)
    (outcome : Outcome) : State :=
  if s.plans.any (·.accountId == accountId) then s
  else if status ≠ .approved then s.planRejected tier "approval_not_approved"
  else match outcome with
    | .rejected code => s.planRejected tier code
    | .made planStatus => { s with plans := s.plans ++ [⟨accountId, planStatus⟩] }

/-- An exception in a call.  The router records it and leaves the signal to the reviewers; in the middle
of the planning it goes on with the next account. -/
def raise (s : State) (p : ℕ) (exc : String) : State :=
  match s.calls p with
  | .armed _ => (s.recordDeferral ("route_error:" ++ exc)).goto p .idle
  | .resolved route => (s.recordDeferral (route.tier.label ++ "_error:" ++ exc)).goto p .idle
  | .called r | .permitted r =>
    match r.route with
    | none => s.goto p .idle
    | some route => (s.recordDeferral (route.tier.label ++ "_error:" ++ exc)).goto p .idle
  | .planning (some tier) status (_ :: targets) =>
    (s.recordDeferral (tier.label ++ "_error:" ++ exc)).goto p (next (some tier) status targets)
  | _ => s.goto p .idle

end State

open State

def step (s : State) : Action → State
  | .edit => { s with row := { s.row with sourceEdited := true } }
  | .review p decision reviewer notes =>
    match s.calls p with
    | .idle => s.goto p (.called ⟨decision, reviewer, notes, none⟩)
    | _ => s
  | .adminAction p decision reviewer =>
    match s.calls p with
    | .idle => s.goto p (.selecting decision reviewer)
    | _ => s
  | .select p =>
    match s.calls p with
    | .selecting decision reviewer =>
      if s.row.status = .pendingApproval then
        s.goto p (.called ⟨decision, some reviewer, decision.adminNotes, none⟩)
      else s.goto p .idle
    | _ => s
  | .permit p canReview =>
    match s.calls p with
    | .called r => s.requireReviewer p r canReview
    | _ => s
  | .save p now =>
    match s.calls p with
    | .permitted r => s.decide p r now
    | _ => s
  | .route p mode =>
    match s.calls p with
    | .idle => s.effectiveMode p mode
    | _ => s
  | .resolve p actor targets =>
    match s.calls p, actor, targets with
    | .armed tier, some actor, target :: rest => s.goto p (.resolved ⟨tier, actor, target :: rest⟩)
    | .armed _, _, _ => s.goto p .idle
    | _, _, _ => s
  | .refresh p =>
    match s.calls p with
    | .resolved route => s.refreshFromDb p route
    | _ => s
  | .operate p accountId =>
    match s.calls p with
    | .idle => s.goto p (.operator accountId)
    | _ => s
  | .load p =>
    match s.calls p with
    | .operator accountId => s.goto p (.planning none s.row.status [accountId])
    | _ => s
  | .plan p outcome =>
    match s.calls p with
    | .planning tier status (target :: targets) =>
      (s.planDemoExecution tier status target outcome).goto p (next tier status targets)
    | _ => s
  | .fail p exc => s.raise p exc

def init (row : PendingSignalApproval) : State := { row }

/-! ### What a decision leaves -/

def Status.event : Status → Option Event
  | .approved => some .signalApproved
  | .rejected => some .signalRejected
  | _ => none

/-- The fields that a decision writes. -/
def PendingSignalApproval.verdict (row : PendingSignalApproval) :
    Status × Option ℕ × Option Time × String :=
  (row.status, row.reviewer, row.reviewedAt, row.reviewNotes)

def State.decisions (s : State) : List (Option ℕ × Event) :=
  (s.audits.filter fun e => e.event = .signalApproved ∨ e.event = .signalRejected).map
    fun e => (e.actor, e.event)

/-- The decision that a step commits. -/
def saved (s : State) : Action → Option Review
  | .save p _ =>
    match s.calls p with
    | .permitted r => some r
    | _ => none
  | _ => none

section

variable {s : State} {a : Action} {p : ℕ} {place : Place} {r : Review}

@[simp] lemma decisions_recordDeferral (reason : String) :
    (s.recordDeferral reason).decisions = s.decisions := by
  simp [State.decisions, State.recordDeferral, State.audit]

structure SameDecision (s s' : State) : Prop where
  verdict : s'.row.verdict = s.row.verdict
  decisions : s'.decisions = s.decisions

lemma SameDecision.refl : SameDecision s s := ⟨rfl, rfl⟩

lemma SameDecision.goto {s' : State} (h : SameDecision s s') :
    SameDecision s (s'.goto p place) := ⟨h.verdict, h.decisions⟩

lemma SameDecision.recordDeferral {s' : State} (h : SameDecision s s') (reason : String) :
    SameDecision s (s'.recordDeferral reason) :=
  ⟨h.verdict, (decisions_recordDeferral reason).trans h.decisions⟩

lemma SameDecision.status {s' : State} (h : SameDecision s s') : s'.row.status = s.row.status :=
  congrArg Prod.fst h.verdict

lemma SameDecision.reviewer {s' : State} (h : SameDecision s s') :
    s'.row.reviewer = s.row.reviewer :=
  congrArg (fun v => v.2.1) h.verdict

lemma sameDecision_requireReviewer (canReview : Bool) :
    SameDecision s (s.requireReviewer p r canReview) ∧
      (s.requireReviewer p r canReview).plans = s.plans := by
  have hdenied : ∀ actor detail, SameDecision s (s.audit actor .approvalDenied detail) :=
    fun actor detail => ⟨rfl, by simp [State.decisions, State.audit]⟩
  unfold State.requireReviewer
  split
  · exact ⟨SameDecision.refl.goto, rfl⟩
  · dsimp only
    split
    · exact ⟨(hdenied _ _).goto, rfl⟩
    · exact ⟨((hdenied _ _).recordDeferral _).goto, rfl⟩

lemma sameDecision_effectiveMode (mode : Except String Tier) :
    SameDecision s (s.effectiveMode p mode) ∧ (s.effectiveMode p mode).plans = s.plans := by
  unfold State.effectiveMode
  split
  · exact ⟨SameDecision.refl.recordDeferral _, rfl⟩
  · split
    · exact ⟨SameDecision.refl.recordDeferral _, rfl⟩
    · exact ⟨SameDecision.refl.goto, rfl⟩

lemma sameDecision_refreshFromDb (route : Route) :
    SameDecision s (s.refreshFromDb p route) ∧ (s.refreshFromDb p route).plans = s.plans := by
  unfold State.refreshFromDb
  split
  · exact ⟨SameDecision.refl.goto, rfl⟩
  · split <;> exact ⟨SameDecision.refl.goto, rfl⟩

lemma sameDecision_raise (exc : String) :
    SameDecision s (s.raise p exc) ∧ (s.raise p exc).plans = s.plans := by
  unfold State.raise
  split
  · exact ⟨(SameDecision.refl.recordDeferral _).goto, rfl⟩
  · exact ⟨(SameDecision.refl.recordDeferral _).goto, rfl⟩
  · split
    · exact ⟨SameDecision.refl.goto, rfl⟩
    · exact ⟨(SameDecision.refl.recordDeferral _).goto, rfl⟩
  · split
    · exact ⟨SameDecision.refl.goto, rfl⟩
    · exact ⟨(SameDecision.refl.recordDeferral _).goto, rfl⟩
  · exact ⟨(SameDecision.refl.recordDeferral _).goto, rfl⟩
  · exact ⟨SameDecision.refl.goto, rfl⟩

lemma sameDecision_planDemoExecution (tier : Option Tier) (status : Status) (accountId : ℕ)
    (outcome : Outcome) :
    SameDecision s (s.planDemoExecution tier status accountId outcome) ∧
      (status ≠ .approved → (s.planDemoExecution tier status accountId outcome).plans = s.plans) := by
  have hrejected : ∀ code, SameDecision s (s.planRejected tier code) ∧
      (s.planRejected tier code).plans = s.plans := by
    intro code
    cases tier with
    | none => exact ⟨SameDecision.refl, rfl⟩
    | some tier => exact ⟨SameDecision.refl.recordDeferral _, rfl⟩
  unfold State.planDemoExecution
  split
  · exact ⟨SameDecision.refl, fun _ => rfl⟩
  · split
    · exact ⟨(hrejected _).1, fun _ => (hrejected _).2⟩
    · rename_i hstatus
      split
      · exact ⟨(hrejected _).1, fun _ => (hrejected _).2⟩
      · exact ⟨⟨rfl, rfl⟩, fun hne => absurd hne hstatus⟩

/-- What a step may do: commit a decision, plan from an approved copy, or neither. -/
inductive Writes (s : State) (a : Action) : Prop
  | decided (r : Review) (hsaved : saved s a = some r)
      (hstatus : (step s a).row.status = r.decision.status)
      (hreviewer : (step s a).row.reviewer = r.reviewer.map (·.pk))
      (hdecisions : (step s a).decisions = s.decisions ++ [(r.reviewer.map (·.pk), r.decision.event)])
      (hplans : (step s a).plans = s.plans)
  | planned (p : ℕ) (tier : Option Tier) (targets : List ℕ) (hsaved : saved s a = none)
      (hcall : s.calls p = .planning tier .approved targets) (hsame : SameDecision s (step s a))
  | quiet (hsaved : saved s a = none) (hsame : SameDecision s (step s a))
      (hplans : (step s a).plans = s.plans)

lemma Writes.of_same (hsaved : saved s a = none)
    (h : SameDecision s (step s a) ∧ (step s a).plans = s.plans) : Writes s a :=
  .quiet hsaved h.1 h.2

lemma step_writes (s : State) (a : Action) : Writes s a := by
  have hsame : SameDecision s s ∧ s.plans = s.plans := ⟨SameDecision.refl, rfl⟩
  have hmoved : ∀ p place, SameDecision s (s.goto p place) ∧ (s.goto p place).plans = s.plans :=
    fun p place => ⟨SameDecision.refl.goto, rfl⟩
  cases a with
  | edit => exact .quiet rfl ⟨rfl, rfl⟩ rfl
  | review p decision reviewer notes =>
    refine .of_same rfl ?_
    simp only [step]
    split <;> first | exact hmoved _ _ | exact hsame
  | adminAction p decision reviewer =>
    refine .of_same rfl ?_
    simp only [step]
    split <;> first | exact hmoved _ _ | exact hsame
  | select p =>
    refine .of_same rfl ?_
    simp only [step]
    split
    · split <;> exact hmoved _ _
    · exact hsame
  | permit p canReview =>
    refine .of_same rfl ?_
    simp only [step]
    split
    · exact sameDecision_requireReviewer canReview
    · exact hsame
  | save p now =>
    cases hcall : s.calls p with
    | permitted r =>
      have hstep : step s (.save p now) = s.decide p r now := by simp [step, hcall]
      refine .decided r (by simp [saved, hcall]) ?_ ?_ ?_ ?_
      all_goals rw [hstep]
      · rfl
      · rfl
      · cases hdecision : r.decision <;>
          simp [State.decisions, State.decide, State.goto, State.audit, hdecision, Decision.event]
      · rfl
    | _ =>
      have hstep : step s (.save p now) = s := by simp [step, hcall]
      exact .of_same (by simp [saved, hcall]) (by rw [hstep]; exact hsame)
  | route p mode =>
    refine .of_same rfl ?_
    simp only [step]
    split
    · exact sameDecision_effectiveMode mode
    · exact hsame
  | resolve p actor targets =>
    refine .of_same rfl ?_
    simp only [step]
    split <;> first | exact hmoved _ _ | exact hsame
  | refresh p =>
    refine .of_same rfl ?_
    simp only [step]
    split
    · exact sameDecision_refreshFromDb _
    · exact hsame
  | operate p accountId =>
    refine .of_same rfl ?_
    simp only [step]
    split <;> first | exact hmoved _ _ | exact hsame
  | load p =>
    refine .of_same rfl ?_
    simp only [step]
    split <;> first | exact hmoved _ _ | exact hsame
  | plan p outcome =>
    cases hcall : s.calls p with
    | planning tier status targets =>
      cases targets with
      | nil =>
        have hstep : step s (.plan p outcome) = s := by simp [step, hcall]
        exact .of_same rfl (by rw [hstep]; exact hsame)
      | cons target targets =>
        have hplan := sameDecision_planDemoExecution (s := s) tier status target outcome
        have hstep : step s (.plan p outcome) =
            (s.planDemoExecution tier status target outcome).goto p (next tier status targets) := by
          simp [step, hcall]
        by_cases hstatus : status = .approved
        · subst hstatus
          refine .planned p tier (target :: targets) rfl hcall ?_
          rw [hstep]
          exact hplan.1.goto
        · refine .of_same rfl ?_
          rw [hstep]
          exact ⟨hplan.1.goto, hplan.2 hstatus⟩
    | _ =>
      have hstep : step s (.plan p outcome) = s := by simp [step, hcall]
      exact .of_same rfl (by rw [hstep]; exact hsame)
  | fail p exc => exact .of_same rfl (sameDecision_raise exc)

/-- A place in which the caller plans, from a copy that it had or that agrees with the row. -/
def Copies (s s' : State) (p : ℕ) (place : Place) : Prop :=
  ∀ tier status targets, place = .planning tier status targets →
    (∃ tier targets, s.calls p = .planning tier status targets) ∨ status = s'.row.status

lemma copies_next {s' : State} {tier : Option Tier} {status : Status} {targets : List ℕ}
    (h : (∃ tier targets, s.calls p = .planning tier status targets) ∨ status = s'.row.status) :
    Copies s s' p (next tier status targets) := by
  intro tier' status' targets' heq
  cases targets with
  | nil => cases heq
  | cons target targets =>
    cases heq
    exact h

/-- A caller that plans has had its copy before, or has it from the row. -/
lemma planning_step {q : ℕ} {tier : Option Tier} {status : Status} {targets : List ℕ}
    (h : (step s a).calls q = .planning tier status targets) :
    (∃ tier targets, s.calls q = .planning tier status targets) ∨ status = (step s a).row.status := by
  have hmoved : ∀ {s' : State} {p place}, s'.calls = s.calls → Copies s s' p place →
      (s'.goto p place).calls q = .planning tier status targets →
      (∃ tier targets, s.calls q = .planning tier status targets) ∨ status = s'.row.status := by
    intro s' p place hcalls hplace h
    simp only [State.goto, hcalls, Function.update_apply] at h
    split at h
    · rename_i hq
      subst hq
      exact hplace _ _ _ h
    · exact .inl ⟨_, _, h⟩
  have hplain : ∀ {s' : State} {p place}, (∀ tier status targets, place ≠ .planning tier status targets) →
      Copies s s' p place := fun hne tier status targets heq => absurd heq (hne tier status targets)
  revert h
  cases a with
  | edit => exact fun h => .inl ⟨_, _, h⟩
  | review p decision reviewer notes =>
    simp only [step]
    split
    · exact hmoved rfl (hplain nofun)
    · exact fun h => .inl ⟨_, _, h⟩
  | adminAction p decision reviewer =>
    simp only [step]
    split
    · exact hmoved rfl (hplain nofun)
    · exact fun h => .inl ⟨_, _, h⟩
  | select p =>
    simp only [step]
    split
    · split <;> exact hmoved rfl (hplain nofun)
    · exact fun h => .inl ⟨_, _, h⟩
  | permit p canReview =>
    simp only [step]
    split
    · unfold State.requireReviewer
      split
      · exact hmoved rfl (hplain nofun)
      · dsimp only
        split <;> exact hmoved rfl (hplain nofun)
    · exact fun h => .inl ⟨_, _, h⟩
  | save p now =>
    simp only [step]
    split
    · refine hmoved rfl ?_
      split
      · exact hplain nofun
      · exact copies_next (.inr rfl)
    · exact fun h => .inl ⟨_, _, h⟩
  | route p mode =>
    simp only [step]
    split
    · unfold State.effectiveMode
      split
      · exact fun h => .inl ⟨_, _, h⟩
      · split
        · exact fun h => .inl ⟨_, _, h⟩
        · exact hmoved rfl (hplain nofun)
    · exact fun h => .inl ⟨_, _, h⟩
  | resolve p actor targets =>
    simp only [step]
    split
    · exact hmoved rfl (hplain nofun)
    · exact hmoved rfl (hplain nofun)
    · exact fun h => .inl ⟨_, _, h⟩
  | refresh p =>
    simp only [step]
    split
    · unfold State.refreshFromDb
      split
      · exact hmoved rfl (hplain nofun)
      · split
        · exact hmoved rfl (hplain nofun)
        · rename_i hstatus
          exact hmoved rfl (copies_next (.inr hstatus.symm))
        · exact hmoved rfl (hplain nofun)
    · exact fun h => .inl ⟨_, _, h⟩
  | operate p accountId =>
    simp only [step]
    split
    · exact hmoved rfl (hplain nofun)
    · exact fun h => .inl ⟨_, _, h⟩
  | load p =>
    simp only [step]
    split
    · refine hmoved rfl ?_
      intro tier status targets heq
      cases heq
      exact .inr rfl
    · exact fun h => .inl ⟨_, _, h⟩
  | plan p outcome =>
    simp only [step]
    split
    · rename_i tier' status' target targets' hcall
      refine hmoved ?_ (copies_next (.inl ⟨_, _, hcall⟩))
      unfold State.planDemoExecution State.planRejected
      split_ifs <;> (repeat' split) <;> rfl
    · exact fun h => .inl ⟨_, _, h⟩
  | fail p exc =>
    simp only [step, State.raise]
    split
    · exact hmoved rfl (hplain nofun)
    · exact hmoved rfl (hplain nofun)
    · split <;> exact hmoved rfl (hplain nofun)
    · split <;> exact hmoved rfl (hplain nofun)
    · rename_i tier' status' target targets' hcall
      exact hmoved rfl (copies_next (.inl ⟨_, _, hcall⟩))
    · exact hmoved rfl (hplain nofun)

end

/-! ### Decisions along a run -/

def WhilePending (s : State) (a : Action) : Prop :=
  (saved s a).isSome = true → s.row.status = .pendingApproval

instance (s : State) (a : Action) : Decidable (WhilePending s a) :=
  inferInstanceAs (Decidable (_ → _))

/-- A step with which the status leaves `PENDING_APPROVAL`. -/
def leaves (s : State) (a : Action) : Bool :=
  s.row.status = .pendingApproval ∧ (step s a).row.status ≠ .pendingApproval

/-- The decision that the row shows is the only one that has been audited, its reviewer is the one of the
row, and what is planned has been approved. -/
structure Stands (s : State) : Prop where
  decisions : s.decisions = (s.row.status.event.map fun e => (s.row.reviewer, e)).toList
  plans : s.row.status ≠ .approved → s.plans = []

structure Final (s : State) (as : List Action) : Prop where
  once : countSteps step leaves s as ≤ 1
  never_approved : ∀ pre mid post, as = pre ++ (mid ++ post) →
    (run step s pre).row.status ∈ [.rejected, .expired, .quarantined] →
    (run step s (pre ++ mid)).row.status ≠ .approved
  stands : ∀ pre, pre <+: as → Stands (run step s pre)
  /-- A rejection is never overwritten, nor followed by a plan. -/
  rejection : ∀ pre mid post, as = pre ++ (mid ++ post) → (run step s pre).row.status = .rejected →
    (run step s (pre ++ mid)).row.verdict = (run step s pre).row.verdict ∧
      (run step s (pre ++ mid)).plans = []

section

variable {s : State} {a : Action} {row : PendingSignalApproval}

/-- What the runs keep whose decisions are saved while the row is pending. -/
structure Inv (s : State) : Prop where
  stands : Stands s
  copies : ∀ p tier targets, s.calls p = .planning tier .approved targets → s.row.status = .approved

lemma inv_init (hnew : row.status.event = none) : Inv (init row) :=
  ⟨⟨by simp [init, hnew, State.decisions], fun _ => rfl⟩, fun _ _ _ h => nomatch h⟩

lemma Decision.event_status (d : Decision) : d.status.event = some d.event := by cases d <;> rfl

lemma Decision.status_ne (d : Decision) : d.status ≠ .pendingApproval := by cases d <;> nofun

lemma inv_step (s : State) (a : Action) (h : Inv s) (hpending : WhilePending s a) : Inv (step s a) := by
  have hcopies : ∀ p tier targets, (step s a).calls p = .planning tier .approved targets →
      s.row.status = .approved ∨ (step s a).row.status = .approved := by
    intro p tier targets hcall
    rcases planning_step hcall with ⟨tier', targets', hcall'⟩ | hstatus
    · exact .inl (h.copies p tier' targets' hcall')
    · exact .inr hstatus.symm
  cases step_writes s a with
  | decided r hsaved hstatus hreviewer hdecisions hplans =>
    have hrow : s.row.status = .pendingApproval := hpending (by rw [hsaved]; rfl)
    have hnone : s.plans = [] := h.stands.plans (by rw [hrow]; nofun)
    refine ⟨⟨?_, fun _ => hplans.trans hnone⟩, fun p tier targets hcall => ?_⟩
    · rw [hdecisions, h.stands.decisions, hrow, hstatus, hreviewer, r.decision.event_status]
      rfl
    · refine (hcopies p tier targets hcall).resolve_left ?_
      rw [hrow]
      nofun
  | planned p tier targets hsaved hcall hsame =>
    have hrow := h.copies p tier targets hcall
    refine ⟨⟨?_, fun hne => absurd (hsame.status.trans hrow) hne⟩,
      fun _ _ _ _ => hsame.status.trans hrow⟩
    rw [hsame.decisions, hsame.status, hsame.reviewer]
    exact h.stands.decisions
  | quiet hsaved hsame hplans =>
    refine ⟨⟨?_, fun hne => ?_⟩, fun p tier targets hcall => ?_⟩
    · rw [hsame.decisions, hsame.status, hsame.reviewer]
      exact h.stands.decisions
    · rw [hsame.status] at hne
      exact hplans.trans (h.stands.plans hne)
    · exact (hcopies p tier targets hcall).elim hsame.status.trans id

lemma verdict_step (s : State) (a : Action) (hpending : WhilePending s a)
    (hrow : s.row.status ≠ .pendingApproval) : (step s a).row.verdict = s.row.verdict := by
  cases step_writes s a with
  | decided r hsaved => exact absurd (hpending (by rw [hsaved]; rfl)) hrow
  | planned _ _ _ _ _ hsame => exact hsame.verdict
  | quiet _ hsame => exact hsame.verdict

lemma verdict_run {as : List Action} (has : StepsMeet step WhilePending s as)
    (hrow : s.row.status ≠ .pendingApproval) : (run step s as).row.verdict = s.row.verdict := by
  have hkeeps : ∀ s' a, s'.row.verdict = s.row.verdict → WhilePending s' a →
      (step s' a).row.verdict = s.row.verdict := by
    intro s' a hverdict hpending
    have hstatus : s'.row.status = s.row.status := congrArg Prod.fst hverdict
    rw [verdict_step s' a hpending (by rw [hstatus]; exact hrow)]
    exact hverdict
  exact run_invariant_of_meets hkeeps rfl has

lemma status_step (hrow : s.row.status ≠ .pendingApproval) :
    (step s a).row.status ≠ .pendingApproval := by
  cases step_writes s a with
  | decided r hsaved hstatus =>
    rw [hstatus]
    exact r.decision.status_ne
  | planned _ _ _ _ _ hsame =>
    rw [hsame.status]
    exact hrow
  | quiet _ hsame =>
    rw [hsame.status]
    exact hrow

lemma leaves_le_one (s : State) (as : List Action) : countSteps step leaves s as ≤ 1 := by
  let left : State → ℕ := fun s => if s.row.status = .pendingApproval then 0 else 1
  have hmono : ∀ s a, left s ≤ left (step s a) := by
    intro s a
    by_cases hrow : s.row.status = .pendingApproval
    · simp [left, hrow]
    · simp [left, hrow, status_step hrow]
  have hcross : ∀ s a, leaves s a = true → left s < 1 ∧ 1 ≤ left (step s a) := by
    intro s a h
    obtain ⟨hrow, hleft⟩ := of_decide_eq_true h
    simp [left, hrow, hleft]
  exact countSteps_le_one 1 hmono hcross s as

lemma final_of_meets (hnew : row.status.event = none) {as : List Action}
    (has : StepsMeet step WhilePending (init row) as) : Final (init row) as := by
  have hinv : ∀ pre post, as = pre ++ post → Inv (run step (init row) pre) := by
    rintro pre post rfl
    exact run_invariant_of_meets inv_step (inv_init hnew) (stepsMeet_append.mp has).1
  have hkept : ∀ pre mid post, as = pre ++ (mid ++ post) →
      (run step (init row) pre).row.status ≠ .pendingApproval →
      (run step (init row) (pre ++ mid)).row.verdict = (run step (init row) pre).row.verdict := by
    rintro pre mid post rfl hrow
    rw [run_append]
    exact verdict_run (stepsMeet_append.mp (stepsMeet_append.mp has).2).1 hrow
  refine ⟨leaves_le_one _ _, fun pre mid post heq hrow => ?_, ?_, fun pre mid post heq hrow => ?_⟩
  · have hverdict := hkept pre mid post heq (fun hp => by simp [hp] at hrow)
    have hstatus : (run step (init row) (pre ++ mid)).row.status = _ := congrArg Prod.fst hverdict
    rw [hstatus]
    intro ha
    rw [show (run step (init row) pre).row.status = .approved from ha] at hrow
    simp at hrow
  · rintro pre ⟨post, rfl⟩
    exact (hinv pre post rfl).stands
  · have hverdict := hkept pre mid post heq (fun hp => by simp [hp] at hrow)
    have hstatus : (run step (init row) (pre ++ mid)).row.status = .rejected :=
      (congrArg Prod.fst hverdict).trans hrow
    refine ⟨hverdict, (hinv (pre ++ mid) post (by rw [heq, List.append_assoc])).stands.plans ?_⟩
    rw [hstatus]
    nofun

/-- A row that has left `PENDING_APPROVAL` has been decided. -/
lemma decided_run (hrow : row.status = .pendingApproval) (as : List Action) :
    (run step (init row) as).row.status = .pendingApproval ∨
      ((run step (init row) as).row.status.event).isSome = true := by
  refine run_invariant (P := fun s : State =>
    s.row.status = .pendingApproval ∨ s.row.status.event.isSome = true) (fun s a h => ?_) (.inl hrow) as
  cases step_writes s a with
  | decided r hsaved hstatus =>
    right
    rw [hstatus, r.decision.event_status]
    rfl
  | planned _ _ _ _ _ hsame => rwa [hsame.status]
  | quiet _ hsame => rwa [hsame.status]

/-- A second decision is one audit too many. -/
lemma meets_of_final (hrow : row.status = .pendingApproval) {as : List Action}
    (h : Final (init row) as) : StepsMeet step WhilePending (init row) as := by
  refine stepsMeet_iff.mpr fun pre a post heq hsaved => ?_
  have hbefore := (h.stands pre ⟨a :: post, heq.symm⟩).decisions
  have hafter := (h.stands (pre ++ [a]) ⟨post, by rw [heq]; simp⟩).decisions
  rw [run_concat] at hafter
  cases step_writes (run step (init row) pre) a with
  | decided r _ _ _ hdecisions =>
    refine (decided_run hrow pre).resolve_right fun hdecided => ?_
    obtain ⟨e, he⟩ := Option.isSome_iff_exists.mp hdecided
    have hlength := congrArg List.length (hdecisions.symm.trans hafter)
    rw [hbefore, he] at hlength
    cases hevent : (step (run step (init row) pre) a).row.status.event <;> simp [hevent] at hlength
  | planned _ _ _ hnone => simp [hnone] at hsaved
  | quiet hnone => simp [hnone] at hsaved

/-- **Decisions about a signal are final** in every run in which each of them is saved while the row is
pending, and for a pending signal in no other run: the status leaves `PENDING_APPROVAL` at most once, no
other status becomes an approval, one decision is audited and its reviewer is the one of the row, and a
rejection is neither overwritten nor followed by a plan. -/
theorem decisions_final_iff (row : PendingSignalApproval) (hnew : row.status.event = none)
    (as : List Action) :
    (StepsMeet step WhilePending (init row) as → Final (init row) as) ∧
      (row.status = .pendingApproval →
        Final (init row) as → StepsMeet step WhilePending (init row) as) :=
  ⟨final_of_meets hnew, fun hrow => meets_of_final hrow⟩

end

/-! ### A rejection that is overwritten -/

def pendingRow : PendingSignalApproval := { status := .pendingApproval, sourceEdited := false }

def system : Reviewer := ⟨1, "guvfx-auto-system"⟩

def alice : Reviewer := ⟨2, "alice"⟩

/-- A reviewer rejects the signal in peace, and the router leaves it alone. -/
def orderly : List Action :=
  [.route 1 (.ok .autoDemo), .resolve 1 (some system) [25], .adminAction 2 .reject alice, .select 2,
    .permit 2 true, .save 2 100, .refresh 1]

theorem decisions_final_orderly :
    Final (init pendingRow) orderly :=
  (decisions_final_iff pendingRow rfl orderly).1 (by decide)

/-- The router has refreshed its copy before the rejection is saved. -/
def overwritten : List Action :=
  [.route 1 (.ok .autoDemo), .resolve 1 (some system) [25], .refresh 1, .permit 1 true,
    .adminAction 2 .reject alice, .select 2, .permit 2 true, .save 2 100, .save 1 101,
    .plan 1 (.made .planned)]

/-- The rejection is committed before the router saves its approval, which overwrites it, and the signal
is planned. -/
theorem not_decisions_final :
    ¬ ∀ row : PendingSignalApproval, row.status.event = none → ∀ as, Final (init row) as := by
  intro h
  have hrejected := (h pendingRow rfl overwritten).rejection (overwritten.take 8) (overwritten.drop 8)
    [] (by rw [List.append_nil]; exact (List.take_append_drop 8 overwritten).symm) (by decide)
  have hplans : (run step (init pendingRow) (overwritten.take 8 ++ overwritten.drop 8)).plans =
      [⟨25, .planned⟩] := by decide
  rw [hrejected.2] at hplans
  cases hplans

end ApprovalDecisions
end GuvFX
