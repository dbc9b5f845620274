/-
# Records and handlers of payment events

The record of an event is created before anything else is done with it, and its key is unique.  So there
is one handler that works on an event, whatever is delivered again, and it saves at most one transition.
The invariant of this file holds in every run, also when handlers die.
-/
import GuvFX.Billing.PaymentWebhooks

namespace GuvFX
namespace PaymentWebhooks

open Runs
open SignedBody (get Fields)

/-- What a handler that has recorded its event has still to do. -/
inductive Phase where
  /-- The transition may still be saved. -/
  | before
  /-- Only the record is to be marked. -/
  | ready (status : ProcessingStatus)
  deriving DecidableEq

/-- The event that a handler works on, after it has recorded it. -/
def Place.phase : Place → Option (Event × Phase)
  | .idle | .received _ | .verified _ => none
  | .recorded e | .resolved e _ | .current e .. | .loaded e .. => some (e, .before)
  | .marking e status => some (e, .ready status)

def newRow (site : Site) (s : State) (e : Event) : PaymentEvent :=
  { event := e
    idempotencyKey := e.idempotencyKey site
    signatureVerifiedAt := s.now
    processingStatus := .verified }

def PaymentEvent.mark (site : Site) (e : Event) (status : ProcessingStatus) (now : Time)
    (row : PaymentEvent) : PaymentEvent :=
  if row.idempotencyKey = e.idempotencyKey site then
    { row with processingStatus := status, processedAt := some now }
  else row

section

variable {site : Site} {s s' : State} {a : Action} {p q : ℕ} {e : Event}

/-- What ends a handler before its time. -/
inductive Dies (site : Site) (s : State) (a : Action) (p : ℕ) : Prop
  | raised (ha : a = .raise p)
  | unreadable (ha : a = .resolve p) (e : Event) (hplace : s.handlers p = .recorded e)
      (hraises : e.resolveUser site = .raises)
  | incomparable (ha : a = .check p) (e : Event) (user : ℕ) (hplace : s.handlers p = .resolved e user)
      (t authority : Time) (htime : e.providerTimestamp site = some (.naive t))
      (hauthority : s.authority user = some authority)

/-- What a step may do to the records, the handlers and the saved transitions. -/
inductive Effect (site : Site) (s : State) (a : Action) (s' : State) : Prop
  | quiet (hevents : s'.events = s.events) (happlied : s'.applied = s.applied)
      (hphase : ∀ q, (s'.handlers q).phase = (s.handlers q).phase)
  | recorded (p : ℕ) (e : Event) (ha : a = .record p) (hplace : s.handlers p = .verified e)
      (hfresh : ∀ row ∈ s.events, row.idempotencyKey ≠ e.idempotencyKey site)
      (hevents : s'.events = s.events ++ [newRow site s e]) (happlied : s'.applied = s.applied)
      (hphase : ∀ q, (s'.handlers q).phase = if q = p then some (e, .before) else (s.handlers q).phase)
  /-- The transition is not made: the event is rejected, or the state cannot be saved. -/
  | refused (p : ℕ) (e : Event) (status : ProcessingStatus) (hold : (s.handlers p).phase = some (e, .before))
      (hstatus : status = .rejected ∨ status = .failed ∧ a = .save p false)
      (hevents : s'.events = s.events) (happlied : s'.applied = s.applied)
      (hphase : ∀ q, (s'.handlers q).phase =
        if q = p then some (e, .ready status) else (s.handlers q).phase)
  | saved (p : ℕ) (e : Event) (user : ℕ) (hold : (s.handlers p).phase = some (e, .before))
      (hevents : s'.events = s.events) (happlied : s'.applied = s.applied ++ [(e, user)])
      (hphase : ∀ q, (s'.handlers q).phase =
        if q = p then some (e, .ready .processed) else (s.handlers q).phase)
  | marked (p : ℕ) (e : Event) (status : ProcessingStatus) (now : Time)
      (hold : (s.handlers p).phase = some (e, .ready status))
      (hevents : s'.events = s.events.map (PaymentEvent.mark site e status now))
      (happlied : s'.applied = s.applied)
      (hphase : ∀ q, (s'.handlers q).phase = if q = p then none else (s.handlers q).phase)
  | died (p : ℕ) (hdies : Dies site s a p) (hevents : s'.events = s.events) (happlied : s'.applied = s.applied)
      (hphase : ∀ q, (s'.handlers q).phase = if q = p then none else (s.handlers q).phase)

lemma phase_goto {place : Place} (q : ℕ) :
    ((s.goto p place).handlers q).phase = if q = p then place.phase else (s.handlers q).phase := by
  simp only [State.goto, Function.update_apply]
  split <;> rfl

lemma Effect.of_goto {place : Place} (hevents : s'.events = s.events) (happlied : s'.applied = s.applied)
    (hhandlers : s'.handlers = s.handlers) (hplace : place.phase = (s.handlers p).phase) :
    Effect site s a (s'.goto p place) := by
  refine .quiet hevents happlied fun q => ?_
  rw [phase_goto, hhandlers]
  split
  · rename_i hq
    rw [hq]
    exact hplace
  · rfl

lemma effect_checkOrdering {user : ℕ} (hplace : s.handlers p = .resolved e user) :
    Effect site s (.check p) (s.checkOrdering site p e user) := by
  have hold : (s.handlers p).phase = some (e, .before) := by rw [hplace]; rfl
  have hreject : Effect site s (.check p) (s.goto p (.marking e .rejected)) :=
    .refused p e .rejected hold (.inl rfl) rfl rfl phase_goto
  unfold State.checkOrdering
  dsimp only
  split
  · split
    · exact hreject
    · split
      · exact hreject
      · exact .of_goto rfl rfl rfl hold.symm
  · rename_i t authority htime hauthority
    exact .died p (.incomparable rfl e user hplace t authority htime hauthority) rfl rfl phase_goto
  · split
    · exact hreject
    · exact .of_goto rfl rfl rfl hold.symm

lemma step_effect (site : Site) (s : State) (a : Action) : Effect site s a (step site s a) := by
  have hstutter : Effect site s a s := .quiet rfl rfl fun _ => rfl
  cases a with
  | tick t => exact .quiet rfl rfl fun _ => rfl
  | deliver p d =>
    simp only [step]
    split
    · rename_i hplace
      exact .of_goto rfl rfl rfl (by rw [hplace]; rfl)
    · exact hstutter
  | verify p =>
    simp only [step]
    split
    · rename_i d hplace
      split <;> exact .of_goto rfl rfl rfl (by rw [hplace]; rfl)
    · exact hstutter
  | record p =>
    simp only [step]
    split
    · rename_i e hplace
      split
      · exact .of_goto rfl rfl rfl (by rw [hplace]; rfl)
      · split
        · exact .of_goto rfl rfl rfl (by rw [hplace]; rfl)
        · rename_i hnone
          refine .recorded p e rfl hplace (fun row hrow hkey => hnone ?_) rfl rfl phase_goto
          exact List.any_eq_true.mpr ⟨row, hrow, by simpa using hkey⟩
    · exact hstutter
  | resolve p =>
    simp only [step]
    split
    · rename_i e hplace
      have hold : (s.handlers p).phase = some (e, .before) := by rw [hplace]; rfl
      split
      · rename_i hraises
        exact .died p (.unreadable rfl e hplace hraises) rfl rfl phase_goto
      · exact .refused p e .rejected hold (.inl rfl) rfl rfl phase_goto
      · exact .of_goto rfl rfl rfl hold.symm
    · exact hstutter
  | check p =>
    simp only [step]
    split
    · rename_i e user hplace
      exact effect_checkOrdering hplace
    · exact hstutter
  | load p =>
    simp only [step]
    split
    · rename_i e user status authority hplace
      exact .of_goto rfl rfl rfl (by rw [hplace]; rfl)
    · exact hstutter
  | save p saves =>
    simp only [step]
    split
    · rename_i e user status authority state hplace
      have hold : (s.handlers p).phase = some (e, .before) := by rw [hplace]; rfl
      split
      · exact .saved p e user hold rfl rfl phase_goto
      · rename_i hsaves
        obtain rfl : saves = false := by simpa using hsaves
        exact .refused p e .failed hold (.inr ⟨rfl, rfl⟩) rfl rfl phase_goto
    · exact hstutter
  | mark p =>
    simp only [step]
    split
    · rename_i e status hplace
      exact .marked p e status s.now (by rw [hplace]; rfl) rfl rfl phase_goto
    · exact hstutter
  | raise p => exact .died p (.raised rfl) rfl rfl phase_goto

/-! ### The invariant of the records -/

def State.appliedKeys (site : Site) (s : State) : List String :=
  s.applied.map fun a => a.1.idempotencyKey site

/-- The records and the handlers fit together. -/
structure Rows (site : Site) (s : State) : Prop where
  keys : (s.events.map (·.idempotencyKey)).Nodup
  key : ∀ row ∈ s.events, row.idempotencyKey = row.event.idempotencyKey site
  working : ∀ p e phase, (s.handlers p).phase = some (e, phase) →
    ∃ row ∈ s.events, row.event = e ∧ row.processingStatus = .verified
  one : ∀ p q e e' phase phase', (s.handlers p).phase = some (e, phase) →
    (s.handlers q).phase = some (e', phase') → e.idempotencyKey site = e'.idempotencyKey site → p = q
  before : ∀ p e, (s.handlers p).phase = some (e, .before) →
    e.idempotencyKey site ∉ s.appliedKeys site
  ready : ∀ p e status, (s.handlers p).phase = some (e, .ready status) →
    (status = .processed ↔ e.idempotencyKey site ∈ s.appliedKeys site)
  applied : (s.appliedKeys site).Nodup
  recorded : ∀ a ∈ s.applied, ∃ row ∈ s.events, row.event = a.1
  processed : ∀ row ∈ s.events, row.processingStatus = .processed →
    row.idempotencyKey ∈ s.appliedKeys site
  refused : ∀ row ∈ s.events, row.processingStatus = .rejected ∨ row.processingStatus = .failed →
    row.idempotencyKey ∉ s.appliedKeys site

lemma rows_init (now : Time) (states : ℕ → Option UserSubscriptionState) :
    Rows site (init now states) where
  keys := List.nodup_nil
  key _ h := nomatch h
  working _ _ _ h := nomatch h
  one _ _ _ _ _ _ h := nomatch h
  before _ _ h := nomatch h
  ready _ _ _ h := nomatch h
  applied := List.nodup_nil
  recorded _ h := nomatch h
  processed _ h := nomatch h
  refused _ h := nomatch h

lemma Rows.eq_of_key (h : Rows site s) {row row' : PaymentEvent} (hrow : row ∈ s.events)
    (hrow' : row' ∈ s.events) (hkey : row.idempotencyKey = row'.idempotencyKey) : row = row' :=
  List.inj_on_of_nodup_map h.keys hrow hrow' hkey

lemma phase_of_stopped (hphase : ∀ q, (s'.handlers q).phase = if q = p then none else (s.handlers q).phase)
    {phase : Phase} (h : (s'.handlers q).phase = some (e, phase)) :
    q ≠ p ∧ (s.handlers q).phase = some (e, phase) := by
  rw [hphase] at h
  split at h
  · cases h
  · rename_i hq
    exact ⟨hq, h⟩

lemma phase_of_moved {e' : Event} {phase' : Phase}
    (hphase : ∀ q, (s'.handlers q).phase = if q = p then some (e', phase') else (s.handlers q).phase)
    {phase : Phase} (h : (s'.handlers q).phase = some (e, phase)) :
    q = p ∧ e = e' ∧ phase = phase' ∨ q ≠ p ∧ (s.handlers q).phase = some (e, phase) := by
  rw [hphase] at h
  split at h
  · rename_i hq
    cases h
    exact .inl ⟨hq, rfl, rfl⟩
  · rename_i hq
    exact .inr ⟨hq, h⟩

lemma Rows.of_quiet (h : Rows site s) (hevents : s'.events = s.events) (happlied : s'.applied = s.applied)
    (hphase : ∀ q, (s'.handlers q).phase = (s.handlers q).phase) : Rows site s' := by
  have hkeys : s'.appliedKeys site = s.appliedKeys site := by rw [State.appliedKeys, happlied]; rfl
  constructor
  · rw [hevents]; exact h.keys
  · rw [hevents]; exact h.key
  · intro p e phase hp
    rw [hevents]
    exact h.working p e phase (by rw [← hphase]; exact hp)
  · intro p q e e' phase phase' hp hq
    exact h.one p q e e' phase phase' (by rw [← hphase]; exact hp) (by rw [← hphase]; exact hq)
  · intro p e hp
    rw [hkeys]
    exact h.before p e (by rw [← hphase]; exact hp)
  · intro p e status hp
    rw [hkeys]
    exact h.ready p e status (by rw [← hphase]; exact hp)
  · rw [hkeys]; exact h.applied
  · rw [happlied, hevents]; exact h.recorded
  · rw [hevents, hkeys]; exact h.processed
  · rw [hevents, hkeys]; exact h.refused

lemma Rows.of_recorded (h : Rows site s) (hfresh : ∀ row ∈ s.events, row.idempotencyKey ≠ e.idempotencyKey site)
    (hevents : s'.events = s.events ++ [newRow site s e]) (happlied : s'.applied = s.applied)
    (hphase : ∀ q, (s'.handlers q).phase = if q = p then some (e, .before) else (s.handlers q).phase) :
    Rows site s' := by
  have hkeys : s'.appliedKeys site = s.appliedKeys site := by rw [State.appliedKeys, happlied]; rfl
  have hnew : e.idempotencyKey site ∉ s.appliedKeys site := by
    intro hmem
    obtain ⟨b, hb, hkey⟩ := List.mem_map.mp hmem
    obtain ⟨row, hrow, hevent⟩ := h.recorded b hb
    exact hfresh row hrow (by rw [h.key row hrow, hevent, hkey])
  have hother : ∀ q e' phase, (s.handlers q).phase = some (e', phase) →
      e'.idempotencyKey site ≠ e.idempotencyKey site := by
    intro q e' phase hq
    obtain ⟨row, hrow, rfl, -⟩ := h.working q e' phase hq
    rw [← h.key row hrow]
    exact hfresh row hrow
  have hmem : newRow site s e ∈ s'.events := by rw [hevents]; simp
  have hold : ∀ row ∈ s.events, row ∈ s'.events := fun row hrow => by
    rw [hevents]; exact List.mem_append_left _ hrow
  have hcases : ∀ row ∈ s'.events, row ∈ s.events ∨ row = newRow site s e := fun row hrow => by
    simpa [hevents] using hrow
  constructor
  · rw [hevents, List.map_append, List.map_singleton, List.nodup_append]
    refine ⟨h.keys, List.nodup_singleton _, ?_⟩
    intro key hkey key' hkey'
    obtain ⟨row, hrow, rfl⟩ := List.mem_map.mp hkey
    rw [List.mem_singleton.mp hkey']
    exact hfresh row hrow
  · intro row hrow
    rcases hcases row hrow with hrow | rfl
    · exact h.key row hrow
    · rfl
  · intro q e' phase hq
    rcases phase_of_moved hphase hq with ⟨-, rfl, -⟩ | ⟨-, hq⟩
    · exact ⟨_, hmem, rfl, rfl⟩
    · obtain ⟨row, hrow, hrest⟩ := h.working q e' phase hq
      exact ⟨row, hold row hrow, hrest⟩
  · intro q q' e₁ e₂ phase phase' hq hq' hkey
    rcases phase_of_moved hphase hq with ⟨rfl, rfl, -⟩ | ⟨-, hq⟩ <;>
      rcases phase_of_moved hphase hq' with ⟨rfl, rfl, -⟩ | ⟨-, hq'⟩
    · rfl
    · exact absurd hkey.symm (hother q' e₂ phase' hq')
    · exact absurd hkey (hother q e₁ phase hq)
    · exact h.one q q' e₁ e₂ phase phase' hq hq' hkey
  · intro q e' hq
    rw [hkeys]
    rcases phase_of_moved hphase hq with ⟨-, rfl, -⟩ | ⟨-, hq⟩
    · exact hnew
    · exact h.before q e' hq
  · intro q e' status hq
    rw [hkeys]
    rcases phase_of_moved hphase hq with ⟨-, -, hsame⟩ | ⟨-, hq⟩
    · cases hsame
    · exact h.ready q e' status hq
  · rw [hkeys]; exact h.applied
  · rw [happlied]
    intro b hb
    obtain ⟨row, hrow, hevent⟩ := h.recorded b hb
    exact ⟨row, hold row hrow, hevent⟩
  · rw [hkeys]
    intro row hrow hstatus
    rcases hcases row hrow with hrow | rfl
    · exact h.processed row hrow hstatus
    · cases hstatus
  · rw [hkeys]
    intro row hrow hstatus
    rcases hcases row hrow with hrow | rfl
    · exact h.refused row hrow hstatus
    · rcases hstatus with hstatus | hstatus <;> cases hstatus

lemma Rows.of_refused {status : ProcessingStatus} (h : Rows site s)
    (hold : (s.handlers p).phase = some (e, .before)) (hstatus : status ≠ .processed)
    (hevents : s'.events = s.events) (happlied : s'.applied = s.applied)
    (hphase : ∀ q, (s'.handlers q).phase = if q = p then some (e, .ready status) else (s.handlers q).phase) :
    Rows site s' := by
  have hkeys : s'.appliedKeys site = s.appliedKeys site := by rw [State.appliedKeys, happlied]; rfl
  -- the handler has worked on the event before
  have hback : ∀ q e' phase, (s'.handlers q).phase = some (e', phase) →
      ∃ phase', (s.handlers q).phase = some (e', phase') := by
    intro q e' phase hq
    rcases phase_of_moved hphase hq with ⟨rfl, rfl, -⟩ | ⟨-, hq⟩
    · exact ⟨_, hold⟩
    · exact ⟨_, hq⟩
  constructor
  · rw [hevents]; exact h.keys
  · rw [hevents]; exact h.key
  · intro q e' phase hq
    obtain ⟨phase', hq⟩ := hback q e' phase hq
    rw [hevents]
    exact h.working q e' phase' hq
  · intro q q' e₁ e₂ phase phase' hq hq'
    obtain ⟨_, hq⟩ := hback q e₁ phase hq
    obtain ⟨_, hq'⟩ := hback q' e₂ phase' hq'
    exact h.one q q' e₁ e₂ _ _ hq hq'
  · intro q e' hq
    rw [hkeys]
    rcases phase_of_moved hphase hq with ⟨-, -, hsame⟩ | ⟨-, hq⟩
    · cases hsame
    · exact h.before q e' hq
  · intro q e' status' hq
    rw [hkeys]
    rcases phase_of_moved hphase hq with ⟨rfl, rfl, hsame⟩ | ⟨-, hq⟩
    · cases hsame
      exact ⟨fun hn => absurd hn hstatus, fun hmem => absurd hmem (h.before _ _ hold)⟩
    · exact h.ready q e' status' hq
  · rw [hkeys]; exact h.applied
  · rw [happlied, hevents]; exact h.recorded
  · rw [hevents, hkeys]; exact h.processed
  · rw [hevents, hkeys]; exact h.refused

lemma Rows.of_saved {user : ℕ} (h : Rows site s) (hold : (s.handlers p).phase = some (e, .before))
    (hevents : s'.events = s.events) (happlied : s'.applied = s.applied ++ [(e, user)])
    (hphase : ∀ q, (s'.handlers q).phase =
      if q = p then some (e, .ready .processed) else (s.handlers q).phase) : Rows site s' := by
  have hkeys : s'.appliedKeys site = s.appliedKeys site ++ [e.idempotencyKey site] := by
    simp [State.appliedKeys, happlied]
  obtain ⟨row, hrow, hevent, hverified⟩ := h.working p e _ hold
  have hother : ∀ q e' phase, q ≠ p → (s.handlers q).phase = some (e', phase) →
      e'.idempotencyKey site ≠ e.idempotencyKey site :=
    fun q e' phase hq hphase hkey => hq (h.one q p e' e phase _ hphase hold hkey)
  have hback : ∀ q e' phase, (s'.handlers q).phase = some (e', phase) →
      ∃ phase', (s.handlers q).phase = some (e', phase') := by
    intro q e' phase hq
    rcases phase_of_moved hphase hq with ⟨rfl, rfl, -⟩ | ⟨-, hq⟩
    · exact ⟨_, hold⟩
    · exact ⟨_, hq⟩
  constructor
  · rw [hevents]; exact h.keys
  · rw [hevents]; exact h.key
  · intro q e' phase hq
    obtain ⟨phase', hq⟩ := hback q e' phase hq
    rw [hevents]
    exact h.working q e' phase' hq
  · intro q q' e₁ e₂ phase phase' hq hq'
    obtain ⟨_, hq⟩ := hback q e₁ phase hq
    obtain ⟨_, hq'⟩ := hback q' e₂ phase' hq'
    exact h.one q q' e₁ e₂ _ _ hq hq'
  · intro q e' hq
    rcases phase_of_moved hphase hq with ⟨-, -, hsame⟩ | ⟨hne, hq⟩
    · cases hsame
    · rw [hkeys, List.mem_append, List.mem_singleton, not_or]
      exact ⟨h.before q e' hq, hother q e' _ hne hq⟩
  · intro q e' status hq
    rw [hkeys, List.mem_append, List.mem_singleton]
    rcases phase_of_moved hphase hq with ⟨rfl, rfl, hsame⟩ | ⟨hne, hq⟩
    · cases hsame
      exact ⟨fun _ => .inr rfl, fun _ => rfl⟩
    · rw [h.ready q e' status hq]
      exact ⟨.inl, fun hmem => hmem.resolve_right (hother q e' _ hne hq)⟩
  · rw [hkeys, List.nodup_append]
    refine ⟨h.applied, List.nodup_singleton _, fun key hkey key' hkey' => ?_⟩
    rw [List.mem_singleton.mp hkey']
    rintro rfl
    exact h.before p e hold hkey
  · rw [happlied, hevents]
    intro b hb
    rcases List.mem_append.mp hb with hb | hb
    · exact h.recorded b hb
    · rw [List.mem_singleton.mp hb]
      exact ⟨row, hrow, hevent⟩
  · rw [hevents, hkeys]
    intro row' hrow' hstatus
    exact List.mem_append_left _ (h.processed row' hrow' hstatus)
  · rw [hevents, hkeys]
    intro row' hrow' hstatus
    rw [List.mem_append, List.mem_singleton, not_or]
    refine ⟨h.refused row' hrow' hstatus, fun hkey => ?_⟩
    have hsame : row' = row := h.eq_of_key hrow' hrow (by rw [hkey, h.key row hrow, hevent])
    rw [hsame, hverified] at hstatus
    rcases hstatus with hstatus | hstatus <;> cases hstatus

@[simp] lemma key_mark (status : ProcessingStatus) (now : Time) (row : PaymentEvent) :
    (row.mark site e status now).idempotencyKey = row.idempotencyKey := by
  unfold PaymentEvent.mark
  split <;> rfl

@[simp] lemma event_mark (status : ProcessingStatus) (now : Time) (row : PaymentEvent) :
    (row.mark site e status now).event = row.event := by
  unfold PaymentEvent.mark
  split <;> rfl

lemma status_mark (status : ProcessingStatus) (now : Time) (row : PaymentEvent) :
    (row.mark site e status now).processingStatus =
      if row.idempotencyKey = e.idempotencyKey site then status else row.processingStatus := by
  unfold PaymentEvent.mark
  split <;> rfl

lemma Rows.of_marked {status : ProcessingStatus} {now : Time} (h : Rows site s)
    (hold : (s.handlers p).phase = some (e, .ready status))
    (hevents : s'.events = s.events.map (PaymentEvent.mark site e status now))
    (happlied : s'.applied = s.applied)
    (hphase : ∀ q, (s'.handlers q).phase = if q = p then none else (s.handlers q).phase) :
    Rows site s' := by
  have hkeys : s'.appliedKeys site = s.appliedKeys site := by rw [State.appliedKeys, happlied]; rfl
  have hcases : ∀ row' ∈ s'.events, ∃ row ∈ s.events, row' = row.mark site e status now := by
    intro row' hrow'
    rw [hevents] at hrow'
    obtain ⟨row, hrow, rfl⟩ := List.mem_map.mp hrow'
    exact ⟨row, hrow, rfl⟩
  have hmem : ∀ row ∈ s.events, row.mark site e status now ∈ s'.events := fun row hrow => by
    rw [hevents]; exact List.mem_map_of_mem hrow
  constructor
  · have hsame : s'.events.map (·.idempotencyKey) = s.events.map (·.idempotencyKey) := by
      simp [hevents, Function.comp_def]
    rw [hsame]
    exact h.keys
  · intro row' hrow'
    obtain ⟨row, hrow, rfl⟩ := hcases row' hrow'
    rw [key_mark, event_mark]
    exact h.key row hrow
  · intro q e' phase hq
    obtain ⟨hne, hq⟩ := phase_of_stopped hphase hq
    obtain ⟨row, hrow, hevent, hverified⟩ := h.working q e' phase hq
    have hkey : row.idempotencyKey ≠ e.idempotencyKey site := by
      intro hkey
      rw [h.key row hrow, hevent] at hkey
      exact hne (h.one q p e' e phase _ hq hold hkey)
    refine ⟨_, hmem row hrow, by rw [event_mark]; exact hevent, ?_⟩
    rw [status_mark, if_neg hkey]
    exact hverified
  · intro q q' e₁ e₂ phase phase' hq hq'
    exact h.one q q' e₁ e₂ phase phase' (phase_of_stopped hphase hq).2 (phase_of_stopped hphase hq').2
  · intro q e' hq
    rw [hkeys]
    exact h.before q e' (phase_of_stopped hphase hq).2
  · intro q e' status' hq
    rw [hkeys]
    exact h.ready q e' status' (phase_of_stopped hphase hq).2
  · rw [hkeys]; exact h.applied
  · rw [happlied]
    intro b hb
    obtain ⟨row, hrow, hevent⟩ := h.recorded b hb
    exact ⟨_, hmem row hrow, by rw [event_mark]; exact hevent⟩
  · rw [hkeys]
    intro row' hrow' hstatus
    obtain ⟨row, hrow, rfl⟩ := hcases row' hrow'
    rw [status_mark] at hstatus
    rw [key_mark]
    split at hstatus
    · rename_i hkey
      rw [hkey]
      exact (h.ready p e status hold).mp hstatus
    · exact h.processed row hrow hstatus
  · rw [hkeys]
    intro row' hrow' hstatus
    obtain ⟨row, hrow, rfl⟩ := hcases row' hrow'
    rw [status_mark] at hstatus
    rw [key_mark]
    split at hstatus
    · rename_i hkey
      rw [hkey, ← h.ready p e status hold]
      rintro rfl
      rcases hstatus with hstatus | hstatus <;> cases hstatus
    · exact h.refused row hrow hstatus

lemma Rows.of_died (h : Rows site s) (hevents : s'.events = s.events) (happlied : s'.applied = s.applied)
    (hphase : ∀ q, (s'.handlers q).phase = if q = p then none else (s.handlers q).phase) :
    Rows site s' := by
  have hkeys : s'.appliedKeys site = s.appliedKeys site := by rw [State.appliedKeys, happlied]; rfl
  constructor
  · rw [hevents]; exact h.keys
  · rw [hevents]; exact h.key
  · intro q e' phase hq
    rw [hevents]
    exact h.working q e' phase (phase_of_stopped hphase hq).2
  · intro q q' e₁ e₂ phase phase' hq hq'
    exact h.one q q' e₁ e₂ phase phase' (phase_of_stopped hphase hq).2 (phase_of_stopped hphase hq').2
  · intro q e' hq
    rw [hkeys]
    exact h.before q e' (phase_of_stopped hphase hq).2
  · intro q e' status' hq
    rw [hkeys]
    exact h.ready q e' status' (phase_of_stopped hphase hq).2
  · rw [hkeys]; exact h.applied
  · rw [happlied, hevents]; exact h.recorded
  · rw [hevents, hkeys]; exact h.processed
  · rw [hevents, hkeys]; exact h.refused

/-- Records and handlers fit together in every run. -/
lemma rows_step (s : State) (a : Action) (h : Rows site s) : Rows site (step site s a) := by
  cases step_effect site s a with
  | quiet hevents happlied hphase => exact h.of_quiet hevents happlied hphase
  | recorded p e _ _ hfresh hevents happlied hphase => exact h.of_recorded hfresh hevents happlied hphase
  | refused p e status hold hstatus hevents happlied hphase =>
    refine h.of_refused hold ?_ hevents happlied hphase
    rcases hstatus with rfl | ⟨rfl, -⟩ <;> nofun
  | saved p e user hold hevents happlied hphase => exact h.of_saved hold hevents happlied hphase
  | marked p e status now hold hevents happlied hphase => exact h.of_marked hold hevents happlied hphase
  | died p _ hevents happlied hphase => exact h.of_died hevents happlied hphase

end

end PaymentWebhooks
end GuvFX
