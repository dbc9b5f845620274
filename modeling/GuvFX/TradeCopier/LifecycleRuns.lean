/-
# Runs of the lifecycle engine

The invariants of the engine, over every list of triggers: a terminal state absorbs, the sequence
number never falls, the ticket of the follower is written on the way into the linked states and
never again, and no entry is linked after its window.  Then the fate of a full close: a queued close
does not say whether it was asked for by a partial or by a full close of the master, so the update
that settles a partial close can take a fully closed position back to `linked`.
-/
import Mathlib.Algebra.Order.Ring.Star
import Mathlib.Data.Rat.Star
import GuvFX.TradeCopier.Lifecycle

namespace GuvFX
namespace Lifecycle

variable {policy : LifecyclePolicy} {now : Time} {ctx ctx' ctx'' : TicketContext}

/-! ### The invariant of a context -/

def LifecycleState.queued : LifecycleState → PendingOp
  | .modifyPending => .modify
  | .closePending => .close
  | _ => .none

/-- Has the engine not linked or ended the lifecycle yet? -/
def LifecycleState.isEntering : LifecycleState → Bool
  | .observedOpen | .entryPending => true
  | _ => false

structure TicketContext.WellFormed (ctx : TicketContext) : Prop where
  pendingOp : ctx.pendingOp = ctx.state.queued
  attempted : ctx.state.isLinked = true → ctx.attempted = true
  entryAttempted : ctx.state = .entryPending → ctx.attempted = true
  reference : ctx.entryReferenceAt.isSome = true
  ticket : ctx.state.isEntering = true → ctx.followerTicket = none

/-- The context of a trigger against the context it was applied to. -/
structure Transition (policy : LifecyclePolicy) (now : Time) (ctx ctx' : TicketContext) : Prop where
  ticket : ctx'.followerTicket ≠ ctx.followerTicket →
    ctx.state = .entryPending ∧ ctx'.state = .linked
  linked : ctx.state.isLinked = false → ctx'.state.isLinked = true →
    ctx.state = .entryPending ∧ ctx'.state = .linked
  window : ctx.state = .entryPending → ctx'.state = .linked →
    ∀ reference, ctx.entryReferenceAt = some reference →
      now - reference ≤ policy.entryAdmissibilitySeconds

structure Later (ctx ctx' : TicketContext) : Prop where
  terminal : ctx.state.isTerminal = true → ctx' = { ctx with appliedSequence := ctx'.appliedSequence }
  sequence : ctx.appliedSequence ≤ ctx'.appliedSequence
  reference : ctx'.entryReferenceAt = ctx.entryReferenceAt
  entered : ctx.state.isEntering = false → ctx'.state.isEntering = false
  ticket : ctx.state.isEntering = false → ctx'.followerTicket = ctx.followerTicket

instance : Std.Refl Later where
  refl _ := ⟨fun _ => rfl, le_rfl, rfl, id, fun _ => rfl⟩

instance : IsTrans TicketContext Later where
  trans ctx ctx' ctx'' h h' := by
    refine ⟨fun hterm => ?_, h.sequence.trans h'.sequence, h'.reference.trans h.reference,
      fun henter => h'.entered (h.entered henter),
      fun henter => (h'.ticket (h.entered henter)).trans (h.ticket henter)⟩
    have hctx' := h.terminal hterm
    have hterm' : ctx'.state.isTerminal = true := by rw [hctx']; exact hterm
    rw [h'.terminal hterm', hctx']

/-! ### One move -/

lemma Move.wellFormed (h : Move policy now ctx ctx') (hctx : ctx.WellFormed) : ctx'.WellFormed := by
  have hop := hctx.pendingOp
  have hatt := hctx.attempted
  have hent := hctx.entryAttempted
  cases h with
  | consume seq hseq => exact ⟨hop, hatt, hent, hctx.reference, hctx.ticket⟩
  | queueClose seq hseq hstate =>
    refine ⟨rfl, fun _ => hatt ?_, nofun, hctx.reference, nofun⟩
    rcases hstate with hstate | hstate <;> rw [hstate] <;> rfl
  | queueModify seq hseq hstate =>
    refine ⟨rfl, fun _ => hatt ?_, nofun, hctx.reference, nofun⟩
    rcases hstate with hstate | hstate <;> rw [hstate] <;> rfl
  | failEntry seq hseq hstate =>
    refine ⟨hop.trans ?_, nofun, nofun, hctx.reference, nofun⟩
    rcases hstate with hstate | hstate <;> rw [hstate] <;> rfl
  | containEntry seq hseq hstate =>
    exact ⟨hop.trans (by rw [hstate]; rfl), nofun, nofun, hctx.reference, nofun⟩
  | contain hstate => exact ⟨rfl, nofun, nofun, hctx.reference, nofun⟩
  | attempt hstate =>
    refine ⟨hop.trans (by rw [hstate]; rfl), nofun, fun _ => rfl, hctx.reference, fun _ => ?_⟩
    exact hctx.ticket (by rw [hstate]; rfl)
  | link ticket hstate hwindow =>
    exact ⟨hop.trans (by rw [hstate]; rfl), fun _ => hent hstate, nofun, hctx.reference, nofun⟩
  | resume hstate =>
    refine ⟨rfl, fun _ => hatt ?_, nofun, hctx.reference, nofun⟩
    rcases hstate with hstate | hstate <;> rw [hstate] <;> rfl
  | close hstate => exact ⟨rfl, nofun, nofun, hctx.reference, nofun⟩

/-- The ticket is written, and the linked states are entered, by `link` alone. -/
lemma Move.transition (h : Move policy now ctx ctx') : Transition policy now ctx ctx' := by
  cases h with
  | consume seq hseq =>
    refine ⟨fun hne => absurd rfl hne, fun hout hin => ?_, fun hentry hlinked => ?_⟩
    · simp [hout] at hin
    · simp [hentry] at hlinked
  | queueClose seq hseq hstate =>
    refine ⟨fun hne => absurd rfl hne, fun hout _ => ?_, nofun⟩
    rcases hstate with hstate | hstate <;> simp [hstate, LifecycleState.isLinked] at hout
  | queueModify seq hseq hstate =>
    refine ⟨fun hne => absurd rfl hne, fun hout _ => ?_, nofun⟩
    rcases hstate with hstate | hstate <;> simp [hstate, LifecycleState.isLinked] at hout
  | failEntry seq hseq hstate => exact ⟨fun hne => absurd rfl hne, nofun, nofun⟩
  | containEntry seq hseq hstate => exact ⟨fun hne => absurd rfl hne, nofun, nofun⟩
  | contain hstate => exact ⟨fun hne => absurd rfl hne, nofun, nofun⟩
  | attempt hstate => exact ⟨fun hne => absurd rfl hne, nofun, nofun⟩
  | link ticket hstate hwindow =>
    refine ⟨fun _ => ⟨hstate, rfl⟩, fun _ _ => ⟨hstate, rfl⟩, fun _ _ reference href => ?_⟩
    simpa [pastEntryDeadline, href] using hwindow
  | resume hstate =>
    refine ⟨fun hne => absurd rfl hne, fun hout _ => ?_, fun hentry _ => ?_⟩
    · rcases hstate with hstate | hstate <;> simp [hstate, LifecycleState.isLinked] at hout
    · rcases hstate with hstate | hstate <;> simp [hstate] at hentry
  | close hstate => exact ⟨fun hne => absurd rfl hne, nofun, nofun⟩

/-- No move but `consume` leaves a terminal state, and no move returns to the entry. -/
lemma Move.later (h : Move policy now ctx ctx') : Later ctx ctx' := by
  cases h with
  | consume seq hseq => exact ⟨fun _ => rfl, hseq, rfl, id, fun _ => rfl⟩
  | queueClose seq hseq hstate =>
    refine ⟨fun hterm => ?_, hseq, rfl, fun _ => rfl, fun _ => rfl⟩
    rcases hstate with hstate | hstate <;> simp [hstate, LifecycleState.isTerminal] at hterm
  | queueModify seq hseq hstate =>
    refine ⟨fun hterm => ?_, hseq, rfl, fun _ => rfl, fun _ => rfl⟩
    rcases hstate with hstate | hstate <;> simp [hstate, LifecycleState.isTerminal] at hterm
  | failEntry seq hseq hstate =>
    refine ⟨fun hterm => ?_, hseq, rfl, fun _ => rfl, fun _ => rfl⟩
    rcases hstate with hstate | hstate <;> simp [hstate, LifecycleState.isTerminal] at hterm
  | containEntry seq hseq hstate =>
    refine ⟨fun hterm => ?_, hseq, rfl, fun _ => rfl, fun _ => rfl⟩
    simp [hstate, LifecycleState.isTerminal] at hterm
  | contain hstate =>
    refine ⟨fun hterm => ?_, le_rfl, rfl, fun _ => rfl, fun _ => rfl⟩
    simp [hstate] at hterm
  | attempt hstate =>
    refine ⟨fun hterm => ?_, le_rfl, rfl, fun henter => ?_, fun henter => ?_⟩
    · simp [hstate, LifecycleState.isTerminal] at hterm
    all_goals simp [hstate, LifecycleState.isEntering] at henter
  | link ticket hstate hwindow =>
    refine ⟨fun hterm => ?_, le_rfl, rfl, fun _ => rfl, fun henter => ?_⟩
    · simp [hstate, LifecycleState.isTerminal] at hterm
    · simp [hstate, LifecycleState.isEntering] at henter
  | resume hstate =>
    refine ⟨fun hterm => ?_, le_rfl, rfl, fun _ => rfl, fun _ => rfl⟩
    rcases hstate with hstate | hstate <;> simp [hstate, LifecycleState.isTerminal] at hterm
  | close hstate =>
    refine ⟨fun hterm => ?_, le_rfl, rfl, fun _ => rfl, fun _ => rfl⟩
    simp [hstate, LifecycleState.isTerminal] at hterm

/-! ### Whole runs -/

lemma applyAll_append (policy : LifecyclePolicy) (ctx : Option TicketContext)
    (triggers more : List Trigger) :
    (applyAll policy ctx (triggers ++ more)).1 =
      (applyAll policy (applyAll policy ctx triggers).1 more).1 := by
  rw [applyAll_fst, applyAll_fst, applyAll_fst, Runs.run_append]

/-- A lifecycle once created is kept, and its contexts follow `Later`. -/
lemma later_run (policy : LifecyclePolicy) (ctx : TicketContext) (more : List Trigger) :
    ∃ ctx', Runs.run (step policy) (some ctx) more = some ctx' ∧ Later ctx ctx' := by
  induction more generalizing ctx with
  | nil => exact ⟨ctx, rfl, refl_of Later ctx⟩
  | cons a more ih =>
    obtain ⟨ctx₁, hstep, hmove⟩ := step_move policy ctx a
    obtain ⟨ctx₂, hrun, hlater⟩ := ih ctx₁
    exact ⟨ctx₂, by rw [Runs.run_cons, hstep, hrun], trans_of Later hmove.later hlater⟩

lemma wellFormed_of_create {a : Trigger} (hstep : step policy none a = some ctx) :
    ctx.WellFormed := by
  obtain ⟨now, ev, -, -, rfl | rfl⟩ := step_none hstep
  · exact ⟨rfl, nofun, nofun, rfl, fun _ => rfl⟩
  · exact ⟨rfl, nofun, nofun, rfl, fun _ => rfl⟩

lemma wellFormed_run (triggers : List Trigger)
    (hrun : Runs.run (step policy) none triggers = some ctx) : ctx.WellFormed := by
  have hinv : ∀ octx a, (∀ ctx, octx = some ctx → ctx.WellFormed) →
      ∀ ctx, step policy octx a = some ctx → ctx.WellFormed := by
    intro octx a hoctx ctx hstep
    cases octx with
    | none => exact wellFormed_of_create hstep
    | some ctx₀ =>
      obtain ⟨ctx₁, hstep₁, hmove⟩ := step_move policy ctx₀ a
      obtain rfl : ctx₁ = ctx := Option.some.inj (hstep₁.symm.trans hstep)
      exact hmove.wellFormed (hoctx ctx₀ rfl)
  exact Runs.run_invariant (P := fun octx => ∀ ctx, octx = some ctx → ctx.WellFormed)
    hinv nofun triggers ctx hrun

/-- The invariant of the engine after the triggers `triggers`. -/
structure EngineInvariant (policy : LifecyclePolicy) (triggers : List Trigger) : Prop where
  /-- A lifecycle begins unlinked. -/
  created : (applyAll policy none triggers).1 = none → ∀ a ctx,
    (applyAll policy none (triggers ++ [a])).1 = some ctx →
      (ctx.state = .observedOpen ∨ ctx.state = .entryFailedFinal) ∧ ctx.followerTicket = none
  wellFormed : ∀ ctx, (applyAll policy none triggers).1 = some ctx → ctx.WellFormed
  next : ∀ ctx, (applyAll policy none triggers).1 = some ctx → ∀ a, ∃ ctx',
    (applyAll policy none (triggers ++ [a])).1 = some ctx' ∧ Transition policy a.now ctx ctx'
  /-- Terminal states absorb, the sequence never falls, the ticket is written once. -/
  later : ∀ ctx, (applyAll policy none triggers).1 = some ctx → ∀ more, ∃ ctx',
    (applyAll policy none (triggers ++ more)).1 = some ctx' ∧ Later ctx ctx'
  /-- An event that was applied already changes nothing. -/
  replay : ∀ ctx, (applyAll policy none triggers).1 = some ctx → ∀ now ev,
    ev.sequence ≤ ctx.appliedSequence →
      (applyAll policy none (triggers ++ [.event now ev])).1 = some ctx

/-- The invariant of the engine holds after every list of triggers. -/
theorem engine_invariant (policy : LifecyclePolicy) (triggers : List Trigger) :
    EngineInvariant policy triggers := by
  constructor
  · intro hnone a ctx hctx
    rw [applyAll_append, hnone, applyAll_fst] at hctx
    obtain ⟨now, ev, -, -, rfl | rfl⟩ := step_none hctx
    · exact ⟨.inl rfl, rfl⟩
    · exact ⟨.inr rfl, rfl⟩
  · intro ctx hctx
    rw [applyAll_fst] at hctx
    exact wellFormed_run triggers hctx
  · intro ctx hctx a
    obtain ⟨ctx', hstep, hmove⟩ := step_move policy ctx a
    refine ⟨ctx', ?_, hmove.transition⟩
    rw [applyAll_append, hctx, applyAll_fst]
    exact hstep
  · intro ctx hctx more
    obtain ⟨ctx', hrun, hlater⟩ := later_run policy ctx more
    refine ⟨ctx', ?_, hlater⟩
    rw [applyAll_append, hctx, applyAll_fst]
    exact hrun
  · intro ctx hctx now ev hseq
    rw [applyAll_append, hctx, applyAll_fst]
    exact step_event_old policy now hseq

/-! ### The fate of a full close -/

/-- The update ends a lifecycle whose close is pending. -/
def LinkUpdate.settles (link : LinkUpdate) : Bool :=
  link.divergent || link.ticketLost || link.closeConfirmed ||
    (link.closeFailed && !link.partialReconciled)

/-- The update takes a lifecycle whose close is pending back to `linked`. -/
def LinkUpdate.reopens (link : LinkUpdate) : Bool :=
  link.partialReconciled && !(link.divergent || link.ticketLost || link.closeConfirmed)

/-- No update reopens the lifecycle before one settles it. -/
def closeKept : List Trigger → Bool
  | [] => true
  | .event _ _ :: triggers => closeKept triggers
  | .link _ link :: triggers => !link.reopens && (link.settles || closeKept triggers)

/-- The follower's position is open and no close is pending. -/
def Unmanaged (octx : Option TicketContext) : Prop :=
  ∃ ctx, octx = some ctx ∧ (ctx.state = .linked ∨ ctx.state = .modifyPending) ∧
    ctx.pendingOp ≠ .close

lemma step_closePending_event (policy : LifecyclePolicy) (now : Time) (ev : MasterEventInput)
    (hstate : ctx.state = .closePending) :
    ∃ seq, step policy (some ctx) (.event now ev) = some { ctx with appliedSequence := seq } := by
  by_cases hseq : ev.sequence ≤ ctx.appliedSequence
  · exact ⟨ctx.appliedSequence, step_event_old policy now hseq⟩
  · refine ⟨ev.sequence, ?_⟩
    cases hcat : ev.category <;>
      simp [step, decide_, decideMasterEvent, LifecycleState.isTerminal, decideFullClose,
        decidePartialClose, decideModify, hstate, hseq, hcat]

lemma step_closePending_reopens {link : LinkUpdate} (hstate : ctx.state = .closePending)
    (hreopens : link.reopens = true) :
    step policy (some ctx) (.link now link) =
      some { ctx with state := .linked, pendingOp := .none } := by
  simp only [LinkUpdate.reopens, Bool.and_eq_true, Bool.not_eq_true', Bool.or_eq_false_iff]
    at hreopens
  obtain ⟨hpart, ⟨hdivergent, hlost⟩, hclosed⟩ := hreopens
  simp [step, decide_, decideLinkUpdate, LifecycleState.isTerminal, decideLinked,
    hstate, hpart, hdivergent, hlost, hclosed]

lemma step_closePending_settles (policy : LifecyclePolicy) (now : Time) {link : LinkUpdate}
    (hstate : ctx.state = .closePending) (hsettles : link.settles = true) :
    ∃ ctx', step policy (some ctx) (.link now link) = some ctx' ∧ ctx'.state.isTerminal = true := by
  by_cases hdivergence : link.divergent = true ∨ link.ticketLost = true
  · have hnext : step policy (some ctx) (.link now link) = (decideDivergence ctx link).next := by
      have hterm : ctx.state.isTerminal = false := by rw [hstate]; rfl
      simp only [step, decide_, decideLinkUpdate, hterm, hdivergence]
      simp [decideDivergence]
      split_ifs <;> rfl
    rw [hnext, decideDivergence]
    split_ifs
    all_goals exact ⟨_, rfl, rfl⟩
  · obtain ⟨hdivergent, hlost⟩ := not_or.mp hdivergence
    cases hclosed : link.closeConfirmed with
    | true =>
      refine ⟨{ ctx with state := .closed, pendingOp := .none }, ?_, rfl⟩
      simp [step, decide_, decideLinkUpdate, LifecycleState.isTerminal, decideLinked,
        hstate, hdivergent, hlost, hclosed]
    | false =>
      -- what settles is the failed close, and no partial close was reconciled
      have hfailed : link.closeFailed = true ∧ link.partialReconciled = false := by
        simpa [LinkUpdate.settles, hdivergent, hlost, hclosed] using hsettles
      refine ⟨{ ctx with state := .containedFailure, pendingOp := .none }, ?_, rfl⟩
      simp [step, decide_, decideLinkUpdate, LifecycleState.isTerminal, decideLinked,
        hstate, hdivergent, hlost, hclosed, hfailed.1, hfailed.2]

lemma step_closePending_other {link : LinkUpdate} (hstate : ctx.state = .closePending)
    (hreopens : link.reopens = false) (hsettles : link.settles = false) :
    step policy (some ctx) (.link now link) = some ctx := by
  simp only [LinkUpdate.settles, Bool.or_eq_false_iff] at hsettles
  obtain ⟨⟨⟨hdivergent, hlost⟩, hclosed⟩, hfailed⟩ := hsettles
  have hpart : link.partialReconciled = false := by
    simpa [LinkUpdate.reopens, hdivergent, hlost, hclosed] using hreopens
  have hfailed : link.closeFailed = false := by simpa [hpart] using hfailed
  simp [step, decide_, decideLinkUpdate, LifecycleState.isTerminal, decideLinked,
    hstate, hpart, hdivergent, hlost, hclosed, hfailed]

lemma not_unmanaged_of_closePending (hstate : ctx.state = .closePending) :
    ¬ Unmanaged (some ctx) := by
  rintro ⟨ctx', hctx, hopen | hopen, -⟩
  · rw [← Option.some.inj hctx, hstate] at hopen; cases hopen
  · rw [← Option.some.inj hctx, hstate] at hopen; cases hopen

lemma not_visited_unmanaged_of_terminal (hterm : ctx.state.isTerminal = true)
    (more : List Trigger) : ¬ Runs.Visited (step policy) (some ctx) more Unmanaged := by
  rintro ⟨pre, -, ctx', hctx', hopen, -⟩
  obtain ⟨ctx₁, hrun, hlater⟩ := later_run policy ctx pre
  obtain rfl : ctx₁ = ctx' := Option.some.inj (hrun.symm.trans hctx')
  have hstate : ctx₁.state = ctx.state := by rw [hlater.terminal hterm]
  rw [← hstate] at hterm
  rcases hopen with hopen | hopen <;> simp [hopen, LifecycleState.isTerminal] at hterm

lemma closePending_managed_iff (policy : LifecyclePolicy) (hstate : ctx.state = .closePending)
    (more : List Trigger) :
    ¬ Runs.Visited (step policy) (some ctx) more Unmanaged ↔ closeKept more = true := by
  induction more generalizing ctx with
  | nil => simpa [closeKept] using not_unmanaged_of_closePending hstate
  | cons a more ih =>
    have hfirst := not_unmanaged_of_closePending hstate
    rw [Runs.visited_cons, or_iff_right hfirst]
    cases a with
    | event now ev =>
      obtain ⟨seq, hstep⟩ := step_closePending_event policy now ev hstate
      rw [hstep, closeKept]
      exact ih hstate
    | link now link =>
      cases hreopens : link.reopens with
      | true =>
        -- the position is open again, and nothing is queued for it
        rw [step_closePending_reopens hstate hreopens]
        simp only [closeKept, hreopens, Bool.not_true, Bool.false_and, Bool.false_eq_true, iff_false,
          not_not]
        exact ⟨[], List.nil_prefix, _, rfl, .inl rfl, nofun⟩
      | false =>
        cases hsettles : link.settles with
        | true =>
          obtain ⟨ctx', hstep, hterm⟩ :=
            step_closePending_settles policy now hstate hsettles
          rw [hstep]
          simpa [closeKept, hreopens, hsettles] using not_visited_unmanaged_of_terminal hterm more
        | false =>
          rw [step_closePending_other hstate hreopens hsettles, ih hstate]
          simp [closeKept, hreopens, hsettles]

lemma step_fullClose (policy : LifecyclePolicy) (now : Time) {ev : MasterEventInput}
    (hlinked : ctx.state.isLinked = true) (hclose : ev.category = .fullClose)
    (hnew : ctx.appliedSequence < ev.sequence) :
    ∃ ctx', step policy (some ctx) (.event now ev) = some ctx' ∧ ctx'.state = .closePending := by
  have hseq : ¬ ev.sequence ≤ ctx.appliedSequence := not_le.mpr hnew
  cases hstate : ctx.state with
  | linked =>
    refine ⟨{ ctx with appliedSequence := ev.sequence, state := .closePending, pendingOp := .close },
      ?_, rfl⟩
    simp [step, decide_, decideMasterEvent, decideFullClose, LifecycleState.isTerminal, hstate,
      hclose, hseq]
  | modifyPending =>
    refine ⟨{ ctx with appliedSequence := ev.sequence, state := .closePending, pendingOp := .close },
      ?_, rfl⟩
    simp [step, decide_, decideMasterEvent, decideFullClose, LifecycleState.isTerminal, hstate,
      hclose, hseq]
  | closePending =>
    -- the close that is pending may be a partial one
    obtain ⟨seq, hstep⟩ := step_closePending_event policy now ev hstate
    exact ⟨_, hstep, hstate⟩
  | _ => simp [hstate, LifecycleState.isLinked] at hlinked

/-- Once a full close was consumed in a linked state, the follower's position stays managed after
every prefix of the later triggers exactly when none of them reopens the lifecycle before one
settles it. -/
theorem full_close_kept_iff (policy : LifecyclePolicy) (triggers more : List Trigger)
    (ctx : TicketContext) (hctx : (applyAll policy none triggers).1 = some ctx)
    (hlinked : ctx.state.isLinked = true) (now : Time) (ev : MasterEventInput)
    (hclose : ev.category = .fullClose) (hnew : ctx.appliedSequence < ev.sequence) :
    (∀ pre, pre <+: more →
      ¬ Unmanaged (applyAll policy none (triggers ++ .event now ev :: pre)).1) ↔
    closeKept more = true := by
  obtain ⟨ctx', hstep, hstate⟩ := step_fullClose policy now hlinked hclose hnew
  rw [← closePending_managed_iff policy hstate more]
  have hafter : ∀ pre, (applyAll policy none (triggers ++ .event now ev :: pre)).1 =
      Runs.run (step policy) (some ctx') pre := by
    intro pre
    rw [applyAll_append, hctx, applyAll_fst, Runs.run_cons, hstep]
  simp only [Runs.Visited, hafter, not_exists, not_and]

/-- The entry of the position `7`, and a partial close of it. -/
def demoTriggers : List Trigger :=
  [.event 0 { sequence := 1, category := .open_, observedAt := 0 },
   .link 1 { attempted := true },
   .link 2 { linked := true, followerTicket := some 7 },
   .event 3 { sequence := 2, category := .partialClose, observedAt := 3 }]

def demoFullClose : MasterEventInput := { sequence := 3, category := .fullClose, observedAt := 4 }

/-- The context after `demoTriggers`. -/
def demoContext : TicketContext where
  state := .closePending
  appliedSequence := 2
  entryReferenceAt := some 0
  followerTicket := some 7
  pendingOp := .close
  attempted := true

theorem full_close_kept_demo :
    (∀ pre, pre <+: [Trigger.link 5 { closeConfirmed := true }] →
      ¬ Unmanaged (applyAll {} none (demoTriggers ++ .event 4 demoFullClose :: pre)).1) ↔
    closeKept [.link 5 { closeConfirmed := true }] = true :=
  full_close_kept_iff {} demoTriggers _ demoContext (by decide +kernel) rfl 4 demoFullClose rfl
    (by decide)

/-- The full close arrives while the partial close is pending; when the partial close is reconciled
the position is `linked` again, with nothing queued for it. -/
theorem full_close_lost :
    ¬ ∀ (policy : LifecyclePolicy) (triggers more : List Trigger) (ctx : TicketContext) (now : Time)
        (ev : MasterEventInput),
      (applyAll policy none triggers).1 = some ctx → ctx.state.isLinked = true →
      ev.category = .fullClose → ctx.appliedSequence < ev.sequence →
      ¬ Unmanaged (applyAll policy none (triggers ++ .event now ev :: more)).1 := by
  intro h
  have hmanaged := h {} demoTriggers [.link 5 { partialReconciled := true }] demoContext 4
    demoFullClose (by decide +kernel) rfl rfl (by decide)
  exact hmanaged ⟨{ demoContext with state := .linked, appliedSequence := 3, pendingOp := .none },
    by decide +kernel, .inl rfl, nofun⟩

end Lifecycle
end GuvFX
