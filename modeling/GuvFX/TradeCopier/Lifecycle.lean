/-
# The lifecycle of a copied position

For each ticket of the master and each follower a lifecycle decides which changes of the master are
propagated, in which order, and until when an entry is admissible.  It is driven by two kinds of
triggers: the events of the master, consumed in the order of their numbers, and the facts that are
known of the follower's side.  The engine is pure; the time is handed to it.
-/
import Mathlib.Algebra.Order.Ring.Rat
import GuvFX.Lib.Runs
import GuvFX.TradeCopier.Account
import GuvFX.TradeCopier.Diff

namespace GuvFX
namespace Lifecycle

open Diff (EventType)

/-! ### States and operations -/

inductive LifecycleState where
  | observedOpen
  | entryPending
  | linked
  | modifyPending
  | closePending
  | entryFailedFinal
  | closed
  | containedFailure
  deriving DecidableEq, Repr

/-- The states that absorb every later trigger. -/
def LifecycleState.isTerminal : LifecycleState → Bool
  | .entryFailedFinal | .closed | .containedFailure => true
  | _ => false

/-- The states in which a follower ticket exists. -/
def LifecycleState.isLinked : LifecycleState → Bool
  | .linked | .modifyPending | .closePending => true
  | _ => false

/-- The operation that is queued for the follower. -/
inductive PendingOp where
  | none
  | modify
  | close
  deriving DecidableEq, Repr

/-- The categories of master events. -/
inductive Category where
  | open_
  | fullClose
  | partialClose
  | modify
  | scaleIn
  | unknown
  deriving DecidableEq, Repr

def categoryFor : EventType → Category
  | .open_ => .open_
  | .fullClose => .fullClose
  | .partialClose => .partialClose
  | .volumeIncrease => .scaleIn
  | .slSet | .slChange | .slRemove | .tpSet | .tpChange | .tpRemove => .modify

/-! ### Policy and inputs -/

/-- The bounds within which a change is propagated, in seconds. -/
structure LifecyclePolicy where
  entryAdmissibilitySeconds : ℚ := 120
  maxModificationAgeSeconds : ℚ := 120
  maxEventAgeSeconds : ℚ := 300
  entry_pos : 0 < entryAdmissibilitySeconds := by norm_num
  modification_pos : 0 < maxModificationAgeSeconds := by norm_num
  event_pos : 0 < maxEventAgeSeconds := by norm_num

structure MasterEventInput where
  sequence : ℤ
  category : Category
  observedAt : Time
  brokerEventTime : Option Time := none
  hasProtection : Bool := false
  modifyWeakens : Bool := false
  deriving DecidableEq, Repr

def MasterEventInput.referenceTime (ev : MasterEventInput) : Time :=
  ev.brokerEventTime.getD ev.observedAt

/-- What is known of the follower's side. -/
structure LinkUpdate where
  attempted : Bool := false
  linked : Bool := false
  followerTicket : Option ℤ := none
  failed : Bool := false
  divergent : Bool := false
  modifyConfirmed : Bool := false
  modifyFailed : Bool := false
  closeConfirmed : Bool := false
  closeFailed : Bool := false
  partialReconciled : Bool := false
  ticketLost : Bool := false
  observedAt : Option Time := none
  deriving DecidableEq, Repr

/-- The durable state of a lifecycle. -/
structure TicketContext where
  state : LifecycleState
  appliedSequence : ℤ := 0
  entryReferenceAt : Option Time := none
  followerTicket : Option ℤ := none
  pendingOp : PendingOp := .none
  attempted : Bool := false
  deriving DecidableEq, Repr

/-- The outcome of one trigger. -/
structure Decision where
  next : Option TicketContext
  applied : Bool
  reason : String
  rejected : String := ""
  deriving DecidableEq, Repr

def pastEntryDeadline (ctx : TicketContext) (now : Time) (policy : LifecyclePolicy) : Bool :=
  ctx.entryReferenceAt.any fun reference =>
    policy.entryAdmissibilitySeconds < now - reference

/-! ### The engine -/

def createLifecycle (ev : MasterEventInput) (now : Time) (policy : LifecyclePolicy) : Decision :=
  if ev.category ≠ .open_ then
    { next := none, applied := false, reason := "no_open_yet", rejected := "no_lifecycle" }
  else
    let reference := ev.referenceTime
    let base : TicketContext :=
      { state := .observedOpen, appliedSequence := ev.sequence, entryReferenceAt := some reference }
    if policy.entryAdmissibilitySeconds < now - reference then
      { next := some { base with state := .entryFailedFinal }, applied := true
        reason := "entry_deadline_exceeded" }
    else { next := some base, applied := true, reason := "observed_open" }

/-- A full close of the master; `base` is the context with the event consumed. -/
def decideFullClose (ctx base : TicketContext) : Decision :=
  match ctx.state with
  | .linked | .modifyPending =>
    { next := some { base with state := .closePending, pendingOp := .close }, applied := true
      reason := "full_close_requested" }
  | .closePending => { next := some base, applied := false, reason := "close_already_pending" }
  | .observedOpen =>
    { next := some { base with state := .entryFailedFinal }, applied := true
      reason := "closed_before_entry" }
  | _ =>
    { next := some { base with state := .containedFailure }, applied := true
      reason := "closed_before_link_contained" }

def decidePartialClose (ctx base : TicketContext) : Decision :=
  match ctx.state with
  | .linked | .modifyPending =>
    { next := some { base with state := .closePending, pendingOp := .close }, applied := true
      reason := "partial_close_requested" }
  | .closePending => { next := some base, applied := false, reason := "close_already_pending" }
  | _ => { next := some base, applied := false, reason := "partial_close_before_link" }

def decideModify (ctx base : TicketContext) (ev : MasterEventInput) (now : Time)
    (policy : LifecyclePolicy) : Decision :=
  match ctx.state with
  | .closePending => { next := some base, applied := false, reason := "superseded_by_close" }
  | .linked | .modifyPending =>
    if ev.modifyWeakens then
      { next := some base, applied := false, reason := "modify_weakens_stop_deferred" }
    else if min policy.maxModificationAgeSeconds policy.maxEventAgeSeconds
        < now - ev.referenceTime then
      { next := some base, applied := false, reason := "modify_too_old" }
    else
      { next := some { base with state := .modifyPending, pendingOp := .modify }
        applied := ctx.state ≠ .modifyPending, reason := "modify_requested" }
  | _ => { next := some base, applied := false, reason := "modify_before_link" }

def decideMasterEvent (ctx : Option TicketContext) (ev : MasterEventInput) (now : Time)
    (policy : LifecyclePolicy) : Decision :=
  match ctx with
  | none => createLifecycle ev now policy
  | some ctx =>
    if ctx.state.isTerminal then
      let nxt := if ev.sequence ≤ ctx.appliedSequence then ctx
        else { ctx with appliedSequence := ev.sequence }
      { next := some nxt, applied := false, reason := "terminal_absorbed" }
    else if ev.sequence ≤ ctx.appliedSequence then
      { next := some ctx, applied := false, reason := "", rejected := "stale_sequence" }
    else
      let base := { ctx with appliedSequence := ev.sequence }
      match ev.category with
      | .open_ => { next := some base, applied := false, reason := "duplicate_open" }
      | .scaleIn => { next := some base, applied := false, reason := "scale_in_deferred" }
      | .unknown => { next := some base, applied := false, reason := "unknown_event_ignored" }
      | .fullClose => decideFullClose ctx base
      | .partialClose => decidePartialClose ctx base
      | .modify => decideModify ctx base ev now policy

def decideDivergence (ctx : TicketContext) (link : LinkUpdate) : Decision :=
  if link.ticketLost ∧ ctx.state = .closePending then
    -- the ticket is gone while it was being closed
    { next := some { ctx with state := .closed, pendingOp := .none }, applied := true
      reason := "close_confirmed" }
  else
    { next := some { ctx with state := .containedFailure, pendingOp := .none }, applied := true
      reason := if link.ticketLost then "link_lost" else "link_divergent" }

/-- The follower's side before the entry is attempted. -/
def decideObserved (ctx : TicketContext) (link : LinkUpdate) (now : Time)
    (policy : LifecyclePolicy) : Decision :=
  if link.attempted then
    if pastEntryDeadline ctx now policy then
      { next := some { ctx with state := .entryFailedFinal }, applied := true
        reason := "attempt_after_deadline" }
    else
      { next := some { ctx with state := .entryPending, attempted := true }, applied := true
        reason := "entry_attempted" }
  else { next := some ctx, applied := false, reason := "observing" }

/-- The follower's side while the entry is pending. -/
def decideEntry (ctx : TicketContext) (link : LinkUpdate) (now : Time)
    (policy : LifecyclePolicy) : Decision :=
  if link.failed then
    { next := some { ctx with state := .entryFailedFinal }, applied := true
      reason := "entry_attempt_failed" }
  else if link.linked then
    if pastEntryDeadline ctx now policy then
      { next := some { ctx with state := .entryFailedFinal }, applied := true
        reason := "linked_after_deadline" }
    else
      { next := some { ctx with state := .linked, followerTicket := link.followerTicket }
        applied := true, reason := "linked" }
  else if pastEntryDeadline ctx now policy then
    { next := some { ctx with state := .entryFailedFinal }, applied := true
      reason := "link_deadline_exceeded" }
  else { next := some ctx, applied := false, reason := "awaiting_link" }

/-- The follower's side of a linked position. -/
def decideLinked (ctx : TicketContext) (link : LinkUpdate) : Decision :=
  if ctx.state = .closePending ∧ link.closeConfirmed then
    { next := some { ctx with state := .closed, pendingOp := .none }, applied := true
      reason := "close_confirmed" }
  else if ctx.state = .closePending ∧ link.partialReconciled then
    { next := some { ctx with state := .linked, pendingOp := .none }, applied := true
      reason := "partial_reconciled" }
  else if ctx.state = .closePending ∧ link.closeFailed then
    { next := some { ctx with state := .containedFailure, pendingOp := .none }, applied := true
      reason := "close_failed" }
  else if ctx.state = .modifyPending ∧ link.modifyConfirmed then
    { next := some { ctx with state := .linked, pendingOp := .none }, applied := true
      reason := "modify_confirmed" }
  else if ctx.state = .modifyPending ∧ link.modifyFailed then
    { next := some { ctx with state := .linked, pendingOp := .none }, applied := true
      reason := "modify_failed" }
  else { next := some ctx, applied := false, reason := "no_link_change" }

/-- Apply one update of the follower's side. -/
def decideLinkUpdate (ctx : Option TicketContext) (link : LinkUpdate) (now : Time)
    (policy : LifecyclePolicy) : Decision :=
  match ctx with
  | none =>
    { next := none, applied := false, reason := "no_open_yet", rejected := "no_lifecycle" }
  | some ctx =>
    if ctx.state.isTerminal then
      { next := some ctx, applied := false, reason := "terminal_absorbed" }
    else if link.divergent ∨ link.ticketLost then decideDivergence ctx link
    else
      match ctx.state with
      | .observedOpen => decideObserved ctx link now policy
      | .entryPending => decideEntry ctx link now policy
      | _ => decideLinked ctx link

inductive Trigger where
  | event (now : Time) (ev : MasterEventInput)
  | link (now : Time) (update : LinkUpdate)
  deriving DecidableEq, Repr

def Trigger.now : Trigger → Time
  | .event now _ => now
  | .link now _ => now

def decide_ (policy : LifecyclePolicy) (ctx : Option TicketContext) : Trigger → Decision
  | .event now ev => decideMasterEvent ctx ev now policy
  | .link now update => decideLinkUpdate ctx update now policy

def step (policy : LifecyclePolicy) (ctx : Option TicketContext) (a : Trigger) :
    Option TicketContext :=
  (decide_ policy ctx a).next.or ctx

def applyAll (policy : LifecyclePolicy) (ctx : Option TicketContext) (triggers : List Trigger) :
    Option TicketContext × List Decision :=
  triggers.foldl (fun acc a => (step policy acc.1 a, acc.2 ++ [decide_ policy acc.1 a])) (ctx, [])

lemma applyAll_fst (policy : LifecyclePolicy) (ctx : Option TicketContext)
    (triggers : List Trigger) :
    (applyAll policy ctx triggers).1 = Runs.run (step policy) ctx triggers := by
  have hfold : ∀ acc : Option TicketContext × List Decision,
      (triggers.foldl (fun acc a =>
        (step policy acc.1 a, acc.2 ++ [decide_ policy acc.1 a])) acc).1
          = Runs.run (step policy) acc.1 triggers := by
    induction triggers with
    | nil => exact fun acc => rfl
    | cons a triggers ih => exact fun acc => ih _
  exact hfold (ctx, [])

/-! ### What a trigger can do -/

/-- The moves of a lifecycle at the time `now`. -/
inductive Move (policy : LifecyclePolicy) (now : Time) (ctx : TicketContext) :
    TicketContext → Prop where
  | consume (seq : ℤ) (hseq : ctx.appliedSequence ≤ seq) :
      Move policy now ctx { ctx with appliedSequence := seq }
  | queueClose (seq : ℤ) (hseq : ctx.appliedSequence ≤ seq)
      (hstate : ctx.state = .linked ∨ ctx.state = .modifyPending) :
      Move policy now ctx
        { ctx with appliedSequence := seq, state := .closePending, pendingOp := .close }
  | queueModify (seq : ℤ) (hseq : ctx.appliedSequence ≤ seq)
      (hstate : ctx.state = .linked ∨ ctx.state = .modifyPending) :
      Move policy now ctx
        { ctx with appliedSequence := seq, state := .modifyPending, pendingOp := .modify }
  | failEntry (seq : ℤ) (hseq : ctx.appliedSequence ≤ seq)
      (hstate : ctx.state = .observedOpen ∨ ctx.state = .entryPending) :
      Move policy now ctx { ctx with appliedSequence := seq, state := .entryFailedFinal }
  | containEntry (seq : ℤ) (hseq : ctx.appliedSequence ≤ seq)
      (hstate : ctx.state = .entryPending) :
      Move policy now ctx { ctx with appliedSequence := seq, state := .containedFailure }
  | contain (hstate : ctx.state.isTerminal = false) :
      Move policy now ctx { ctx with state := .containedFailure, pendingOp := .none }
  | attempt (hstate : ctx.state = .observedOpen) :
      Move policy now ctx { ctx with state := .entryPending, attempted := true }
  | link (ticket : Option ℤ) (hstate : ctx.state = .entryPending)
      (hwindow : pastEntryDeadline ctx now policy = false) :
      Move policy now ctx { ctx with state := .linked, followerTicket := ticket }
  | resume (hstate : ctx.state = .modifyPending ∨ ctx.state = .closePending) :
      Move policy now ctx { ctx with state := .linked, pendingOp := .none }
  | close (hstate : ctx.state = .closePending) :
      Move policy now ctx { ctx with state := .closed, pendingOp := .none }

variable {policy : LifecyclePolicy} {now : Time} {ctx ctx' : TicketContext}

lemma Move.refl (ctx : TicketContext) : Move policy now ctx ctx :=
  .consume ctx.appliedSequence le_rfl

lemma move_decideFullClose {seq : ℤ} (hseq : ctx.appliedSequence ≤ seq)
    (hterm : ctx.state.isTerminal = false) :
    ∃ ctx', (decideFullClose ctx { ctx with appliedSequence := seq }).next = some ctx' ∧
      Move policy now ctx ctx' := by
  unfold decideFullClose
  cases hstate : ctx.state with
  | observedOpen => exact ⟨_, rfl, .failEntry seq hseq (.inl hstate)⟩
  | entryPending => exact ⟨_, rfl, .containEntry seq hseq hstate⟩
  | linked => exact ⟨_, rfl, .queueClose seq hseq (.inl hstate)⟩
  | modifyPending => exact ⟨_, rfl, .queueClose seq hseq (.inr hstate)⟩
  | closePending => exact ⟨{ ctx with appliedSequence := seq }, by simp [hstate], .consume seq hseq⟩
  | entryFailedFinal => simp [hstate, LifecycleState.isTerminal] at hterm
  | closed => simp [hstate, LifecycleState.isTerminal] at hterm
  | containedFailure => simp [hstate, LifecycleState.isTerminal] at hterm

lemma move_decidePartialClose {seq : ℤ} (hseq : ctx.appliedSequence ≤ seq) :
    ∃ ctx', (decidePartialClose ctx { ctx with appliedSequence := seq }).next = some ctx' ∧
      Move policy now ctx ctx' := by
  unfold decidePartialClose
  cases hstate : ctx.state with
  | linked => exact ⟨_, rfl, .queueClose seq hseq (.inl hstate)⟩
  | modifyPending => exact ⟨_, rfl, .queueClose seq hseq (.inr hstate)⟩
  | _ => exact ⟨{ ctx with appliedSequence := seq }, by simp [hstate], .consume seq hseq⟩

/-- A change that is too old or weakens the stop is consumed without being queued. -/
lemma decideModify_linked {base : TicketContext} {ev : MasterEventInput}
    (hstate : ctx.state = .linked ∨ ctx.state = .modifyPending) :
    (decideModify ctx base ev now policy).next = some base ∨
      (decideModify ctx base ev now policy).next =
        some { base with state := .modifyPending, pendingOp := .modify } := by
  rcases hstate with hstate | hstate
  all_goals
    simp only [decideModify, hstate]
    split_ifs
    · exact .inl rfl
    · exact .inl rfl
    · exact .inr rfl

lemma move_decideModify {seq : ℤ} {ev : MasterEventInput} (hseq : ctx.appliedSequence ≤ seq) :
    ∃ ctx', (decideModify ctx { ctx with appliedSequence := seq } ev now policy).next = some ctx' ∧
      Move policy now ctx ctx' := by
  by_cases hstate : ctx.state = .linked ∨ ctx.state = .modifyPending
  · rcases decideModify_linked hstate with hnext | hnext
    · exact ⟨_, hnext, .consume seq hseq⟩
    · exact ⟨_, hnext, .queueModify seq hseq hstate⟩
  · refine ⟨{ ctx with appliedSequence := seq }, ?_, .consume seq hseq⟩
    cases h : ctx.state <;> simp_all [decideModify]

lemma move_decideMasterEvent (policy : LifecyclePolicy) (ctx : TicketContext)
    (ev : MasterEventInput) (now : Time) :
    ∃ ctx', (decideMasterEvent (some ctx) ev now policy).next = some ctx' ∧
      Move policy now ctx ctx' ∧ (ev.sequence ≤ ctx.appliedSequence → ctx' = ctx) := by
  by_cases hseq : ev.sequence ≤ ctx.appliedSequence
  · refine ⟨ctx, ?_, .refl ctx, fun _ => rfl⟩
    by_cases hterm : ctx.state.isTerminal <;> simp [decideMasterEvent, hterm, hseq]
  have hle : ctx.appliedSequence ≤ ev.sequence := (not_le.mp hseq).le
  suffices h : ∃ ctx', (decideMasterEvent (some ctx) ev now policy).next = some ctx' ∧
      Move policy now ctx ctx' by
    obtain ⟨ctx', hnext, hmove⟩ := h
    exact ⟨ctx', hnext, hmove, fun h => absurd h hseq⟩
  cases hterm : ctx.state.isTerminal with
  | true =>
    exact ⟨{ ctx with appliedSequence := ev.sequence },
      by simp [decideMasterEvent, hterm, hseq], .consume _ hle⟩
  | false =>
    simp only [decideMasterEvent, hterm, Bool.false_eq_true, if_false, hseq]
    cases ev.category with
    | fullClose => exact move_decideFullClose hle hterm
    | partialClose => exact move_decidePartialClose hle
    | modify => exact move_decideModify hle
    | open_ => exact ⟨_, rfl, .consume _ hle⟩
    | scaleIn => exact ⟨_, rfl, .consume _ hle⟩
    | unknown => exact ⟨_, rfl, .consume _ hle⟩

lemma move_decideDivergence {link : LinkUpdate} (hterm : ctx.state.isTerminal = false) :
    ∃ ctx', (decideDivergence ctx link).next = some ctx' ∧ Move policy now ctx ctx' := by
  unfold decideDivergence
  by_cases hlost : link.ticketLost ∧ ctx.state = .closePending
  · rw [if_pos hlost]
    exact ⟨_, rfl, .close hlost.2⟩
  · rw [if_neg hlost]
    exact ⟨_, rfl, .contain hterm⟩

lemma failEntry_now (hstate : ctx.state = .observedOpen ∨ ctx.state = .entryPending) :
    Move policy now ctx { ctx with state := .entryFailedFinal } :=
  .failEntry ctx.appliedSequence le_rfl hstate

lemma move_decideObserved {link : LinkUpdate} (hstate : ctx.state = .observedOpen) :
    ∃ ctx', (decideObserved ctx link now policy).next = some ctx' ∧ Move policy now ctx ctx' := by
  unfold decideObserved
  split_ifs
  · exact ⟨_, rfl, failEntry_now (.inl hstate)⟩
  · exact ⟨_, rfl, .attempt hstate⟩
  · exact ⟨_, rfl, .refl ctx⟩

lemma move_decideEntry {link : LinkUpdate} (hstate : ctx.state = .entryPending) :
    ∃ ctx', (decideEntry ctx link now policy).next = some ctx' ∧ Move policy now ctx ctx' := by
  unfold decideEntry
  split_ifs with hfailed hlinked hlate hlate
  · exact ⟨_, rfl, failEntry_now (.inr hstate)⟩
  · exact ⟨_, rfl, failEntry_now (.inr hstate)⟩
  · exact ⟨_, rfl, .link _ hstate (by simpa using hlate)⟩
  · exact ⟨_, rfl, failEntry_now (.inr hstate)⟩
  · exact ⟨_, rfl, .refl ctx⟩

lemma move_decideLinked {link : LinkUpdate} :
    ∃ ctx', (decideLinked ctx link).next = some ctx' ∧ Move policy now ctx ctx' := by
  unfold decideLinked
  split_ifs with hclosed hpart hcontain hmodified hkept
  · exact ⟨_, rfl, .close hclosed.1⟩
  · exact ⟨_, rfl, .resume (.inr hpart.1)⟩
  · exact ⟨_, rfl, .contain (by rw [hcontain.1]; rfl)⟩
  · exact ⟨_, rfl, .resume (.inl hmodified.1)⟩
  · exact ⟨_, rfl, .resume (.inl hkept.1)⟩
  · exact ⟨_, rfl, .refl ctx⟩

lemma move_decideLinkUpdate (policy : LifecyclePolicy) (ctx : TicketContext) (link : LinkUpdate)
    (now : Time) :
    ∃ ctx', (decideLinkUpdate (some ctx) link now policy).next = some ctx' ∧
      Move policy now ctx ctx' := by
  cases hterm : ctx.state.isTerminal with
  | true => exact ⟨ctx, by simp [decideLinkUpdate, hterm], .refl ctx⟩
  | false =>
    simp only [decideLinkUpdate, hterm, Bool.false_eq_true, if_false]
    split_ifs
    · exact move_decideDivergence hterm
    · cases hstate : ctx.state with
      | observedOpen => exact move_decideObserved hstate
      | entryPending => exact move_decideEntry hstate
      | _ => exact move_decideLinked

/-- Every trigger makes one move of an existing lifecycle. -/
theorem step_move (policy : LifecyclePolicy) (ctx : TicketContext) (a : Trigger) :
    ∃ ctx', step policy (some ctx) a = some ctx' ∧ Move policy a.now ctx ctx' := by
  cases a with
  | event now ev =>
    obtain ⟨ctx', hnext, hmove, -⟩ := move_decideMasterEvent policy ctx ev now
    exact ⟨ctx', by simp [step, decide_, hnext], hmove⟩
  | link now update =>
    obtain ⟨ctx', hnext, hmove⟩ := move_decideLinkUpdate policy ctx update now
    exact ⟨ctx', by simp [step, decide_, hnext], hmove⟩

lemma step_event_old (policy : LifecyclePolicy) {ev : MasterEventInput} (now : Time)
    (hseq : ev.sequence ≤ ctx.appliedSequence) :
    step policy (some ctx) (.event now ev) = some ctx := by
  obtain ⟨ctx', hnext, -, hold⟩ := move_decideMasterEvent policy ctx ev now
  simp [step, decide_, hnext, hold hseq]

lemma step_none {a : Trigger} (hstep : step policy none a = some ctx) :
    ∃ now ev, a = .event now ev ∧ ev.category = .open_ ∧
      (ctx = { state := .observedOpen, appliedSequence := ev.sequence,
               entryReferenceAt := some ev.referenceTime } ∨
       ctx = { state := .entryFailedFinal, appliedSequence := ev.sequence,
               entryReferenceAt := some ev.referenceTime }) := by
  cases a with
  | link now update => simp [step, decide_, decideLinkUpdate] at hstep
  | event now ev =>
    simp only [step, decide_, decideMasterEvent, createLifecycle] at hstep
    split_ifs at hstep with hopen hlate
    · cases hstep
    · exact ⟨now, ev, rfl, by simpa using hopen, .inr (Option.some.inj hstep).symm⟩
    · exact ⟨now, ev, rfl, by simpa using hopen, .inl (Option.some.inj hstep).symm⟩

end Lifecycle
end GuvFX
