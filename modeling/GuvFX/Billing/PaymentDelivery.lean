/-
# Events that are applied once, and not swallowed

The record of an event is committed before the event is looked at.  A handler that dies after that leaves
a record behind, and every later delivery of the event is a duplicate of it: the event is neither applied
nor rejected, and never will be.  The same happens to an event whose key another event has taken, for
instance when both have no id.

In the runs in which no handler is interrupted after it has recorded its event, and every event has an id
of its own, each event is applied at most once, and all that have been recorded are applied or rejected.
Nothing is changed before a signature has been verified, in any run.
-/
import GuvFX.Billing.PaymentRecords

namespace GuvFX
namespace PaymentWebhooks

open Runs
open SignedBody (get Fields)

/-! ### What is the same event -/

def Event.id? (e : Event) : Option String :=
  match get e.payload "id" with
  | some (.str id) => if id = "" then none else some id
  | _ => none

/-- What tells one event from another: its id, or all of it. -/
inductive Identity where
  | id (provider : String) (id : String)
  | payload (provider : String) (payload : Fields)

def Event.identity (site : Site) (e : Event) : Identity :=
  match e.id? with
  | some id => .id (site.upper e.providerName) id
  | none => .payload (site.upper e.providerName) e.payload

/-- `str` leaves a text as it is. -/
structure Site.Lawful (site : Site) : Prop where
  str_str : ∀ text, site.str (.str text) = text

/-! ### Runs without interruptions -/

/-- An event and one that has been recorded: the name of a provider is spelled in one way, and the hashes
of the keys do not collide. -/
structure Distinguished (site : Site) (recorded e : Event) : Prop where
  spelled : site.upper recorded.providerName = site.upper e.providerName →
    recorded.providerName = e.providerName
  hash : recorded.idempotencyKey site = e.idempotencyKey site → recorded.rawKey site = e.rawKey site

/-- An event that can be told from the recorded ones by its id, and can be stored.  The name of its
provider has no colon. -/
def Proper (site : Site) (s : State) (e : Event) : Prop :=
  e.id?.isSome = true ∧ ':' ∉ e.providerName.toList ∧ site.storable e = true ∧
    ∀ row ∈ s.events, Distinguished site row.event e

/-- The time of the event can be compared with the last change of the subscription. -/
def Comparable (site : Site) (s : State) (e : Event) (user : ℕ) : Prop :=
  match e.providerTimestamp site, s.authority user with
  | some (.naive _), some _ => False
  | _, _ => True

def Place.Undisturbed (site : Site) (s : State) : Place → Prop
  | .verified e => Proper site s e
  | .recorded e => e.resolveUser site ≠ .raises
  | .resolved e user => Comparable site s e user
  | _ => True

/-- A handler may die before it has recorded its event, and after it has saved the transition. -/
def Place.mayDie : Place → Bool
  | .idle | .received _ | .verified _ | .marking _ .processed => true
  | _ => false

/-- Events are recorded under ids of their own, and no handler is interrupted after that. -/
def Undisturbed (site : Site) (s : State) : Action → Prop
  | .record p | .resolve p | .check p => (s.handlers p).Undisturbed site s
  | .save _ saves => saves = true
  | .raise p => (s.handlers p).mayDie = true
  | _ => True

instance (site : Site) (recorded e : Event) : Decidable (Distinguished site recorded e) :=
  decidable_of_iff (_ ∧ _) ⟨fun h => ⟨h.1, h.2⟩, fun h => ⟨h.spelled, h.hash⟩⟩

instance (site : Site) (s : State) (e : Event) : Decidable (Proper site s e) :=
  inferInstanceAs (Decidable (_ ∧ _ ∧ _ ∧ _))

instance (site : Site) (s : State) (e : Event) (user : ℕ) : Decidable (Comparable site s e user) := by
  unfold Comparable
  split <;> infer_instance

instance (site : Site) (s : State) (place : Place) : Decidable (place.Undisturbed site s) := by
  cases place with
  | verified e => exact inferInstanceAs (Decidable (Proper site s e))
  | recorded e => exact inferInstanceAs (Decidable (_ ≠ _))
  | resolved e user => exact inferInstanceAs (Decidable (Comparable site s e user))
  | _ => exact .isTrue trivial

instance (site : Site) (s : State) (a : Action) : Decidable (Undisturbed site s a) := by
  cases a with
  | record p | resolve p | check p => exact inferInstanceAs (Decidable (Place.Undisturbed site s _))
  | save p saves => exact inferInstanceAs (Decidable (_ = _))
  | raise p => exact inferInstanceAs (Decidable (_ = true))
  | _ => exact .isTrue trivial

/-! ### What is promised -/

def Settled (s : State) (e : Event) : Prop :=
  (∃ user, (e, user) ∈ s.applied) ∨ ∃ row ∈ s.events, row.event = e ∧ row.processingStatus = .rejected

/-- Nothing has come of the event: it is not applied, not rejected, and nobody works on it. -/
structure Unsettled (site : Site) (s : State) (e : Event) : Prop where
  applied : ∀ a ∈ s.applied, a.1.identity site ≠ e.identity site
  rejected : ∀ row ∈ s.events, row.event.identity site = e.identity site → row.processingStatus ≠ .rejected
  working : ∀ q e' phase, (s.handlers q).phase = some (e', phase) → e'.identity site ≠ e.identity site

/-- The steps of a handler after the verification, with nothing in between. -/
def handling (p : ℕ) : List Action := [.record p, .resolve p, .check p, .load p, .save p true, .mark p]

def Action.handler : Action → Option ℕ
  | .tick _ => none
  | .deliver p _ | .verify p | .record p | .resolve p | .check p | .load p | .save p _ | .mark p
  | .raise p => some p

def Place.event? : Place → Option Event
  | .idle | .received _ => none
  | .verified e => some e
  | place => place.phase.map (·.1)

/-- A step that changes the records, a subscription or what is applied. -/
def Changes (s s' : State) : Prop :=
  s'.events ≠ s.events ∨ s'.states ≠ s.states ∨ s'.applied ≠ s.applied

/-- Each event of a run is applied once, and none is swallowed. -/
structure AppliedOnce (site : Site) (s₀ : State) (as : List Action) : Prop where
  once : ∀ pre, pre <+: as →
    ((run (step site) s₀ pre).applied.map fun a => a.1.identity site).Nodup
  settled : ∀ pre, pre <+: as → ∀ row ∈ (run (step site) s₀ pre).events,
    (∀ p phase, ((run (step site) s₀ pre).handlers p).phase ≠ some (row.event, phase)) →
    Settled (run (step site) s₀ pre) row.event
  /-- An event of which nothing has come is applied or rejected when it is delivered again. -/
  redelivered : ∀ pre, pre <+: as → ∀ p e, (run (step site) s₀ pre).handlers p = .verified e →
    Unsettled site (run (step site) s₀ pre) e →
    StepsMeet (step site) (Undisturbed site) (run (step site) s₀ pre) (handling p) →
    Settled (run (step site) s₀ (pre ++ handling p)) e
  /-- A duplicate is a duplicate of the same event. -/
  suppressed : ∀ pre p post, as = pre ++ .record p :: post → ∀ e,
    (run (step site) s₀ pre).handlers p = .verified e → ∀ row ∈ (run (step site) s₀ pre).events,
    row.idempotencyKey = e.idempotencyKey site → row.event.identity site = e.identity site
  /-- What changes anything is a handler of an event that has been received with its signature. -/
  verified : ∀ pre a post, as = pre ++ a :: post →
    Changes (run (step site) s₀ pre) (run (step site) s₀ (pre ++ [a])) →
    ∃ p e d, a.handler = some p ∧ ((run (step site) s₀ pre).handlers p).event? = some e ∧
      Action.deliver p d ∈ pre ∧ received site d = some e

section

variable {site : Site} {s s' : State} {a : Action} {p q : ℕ} {e e' : Event}

/-! ### Keys and ids -/

lemma cut_unique {α : Type*} {xs xs' ys ys' : List α} {x : α} (h : xs ++ x :: ys = xs' ++ x :: ys')
    (hxs : x ∉ xs) (hxs' : x ∉ xs') : xs = xs' ∧ ys = ys' := by
  rcases List.append_eq_append_iff.mp h with ⟨mid, rfl, hmid⟩ | ⟨mid, rfl, hmid⟩
  · cases mid with
    | nil => exact ⟨(List.append_nil xs).symm, (List.cons.inj hmid).2⟩
    | cons y mid =>
      obtain ⟨rfl, -⟩ := List.cons.inj hmid
      exact absurd (List.mem_append_right _ List.mem_cons_self) hxs'
  · cases mid with
    | nil => exact ⟨List.append_nil xs', (List.cons.inj hmid).2.symm⟩
    | cons y mid =>
      obtain ⟨rfl, -⟩ := List.cons.inj hmid
      exact absurd (List.mem_append_right _ List.mem_cons_self) hxs

lemma rawKey_of_id (hlawful : site.Lawful) {id : String} (h : e.id? = some id) :
    e.rawKey site = e.providerName ++ ":" ++ id ∧ id ≠ "" := by
  unfold Event.id? at h
  split at h
  · rename_i text htext
    split at h
    · cases h
    · rename_i hne
      cases h
      have hid : e.providerEventId site = id := by
        simp [Event.providerEventId, Event.text, htext, hlawful.str_str]
      refine ⟨?_, hne⟩
      rw [Event.rawKey, hid, if_pos hne]
  · cases h

lemma identity_of_rawKey (hlawful : site.Lawful) (he : e.id?.isSome = true) (he' : e'.id?.isSome = true)
    (hcolon : ':' ∉ e.providerName.toList) (hcolon' : ':' ∉ e'.providerName.toList)
    (hraw : e.rawKey site = e'.rawKey site) : e.identity site = e'.identity site := by
  obtain ⟨id, hid⟩ := Option.isSome_iff_exists.mp he
  obtain ⟨id', hid'⟩ := Option.isSome_iff_exists.mp he'
  rw [(rawKey_of_id hlawful hid).1, (rawKey_of_id hlawful hid').1] at hraw
  have hlists := congrArg String.toList hraw
  simp only [String.toList_append, List.append_assoc] at hlists
  have hcut : e.providerName.toList ++ ':' :: id.toList = e'.providerName.toList ++ ':' :: id'.toList :=
    hlists
  obtain ⟨hname, hids⟩ := cut_unique hcut hcolon hcolon'
  rw [Event.identity, Event.identity, hid, hid', String.toList_injective hname,
    String.toList_injective hids]

lemma key_of_identity (hlawful : site.Lawful) (he : e.id?.isSome = true)
    (hname : site.upper e.providerName = site.upper e'.providerName → e.providerName = e'.providerName)
    (h : e.identity site = e'.identity site) : e.idempotencyKey site = e'.idempotencyKey site := by
  obtain ⟨id, hid⟩ := Option.isSome_iff_exists.mp he
  rw [Event.identity, Event.identity, hid] at h
  cases hid' : e'.id? with
  | none => simp [hid'] at h
  | some id' =>
    simp only [hid', Identity.id.injEq] at h
    rw [Event.idempotencyKey, Event.idempotencyKey, (rawKey_of_id hlawful hid).1,
      (rawKey_of_id hlawful hid').1, hname h.1, h.2]

/-! ### What the runs keep -/

/-- A handler works on the event of a record, or the event has been applied. -/
def Attended (site : Site) (s : State) (row : PaymentEvent) : Prop :=
  (∃ p phase, (s.handlers p).phase = some (row.event, phase)) ∨ row.idempotencyKey ∈ s.appliedKeys site

/-- What the runs without interruptions keep. -/
structure Inv (site : Site) (s : State) : Prop where
  rows : Rows site s
  ids : ∀ row ∈ s.events, row.event.id?.isSome = true ∧ ':' ∉ row.event.providerName.toList
  spelled : ∀ row ∈ s.events, ∀ row' ∈ s.events,
    site.upper row.event.providerName = site.upper row'.event.providerName →
    row.event.providerName = row'.event.providerName
  marks : ∀ p e status, (s.handlers p).phase = some (e, .ready status) →
    status = .processed ∨ status = .rejected
  fails : ∀ row ∈ s.events, row.processingStatus ≠ .failed
  attended : ∀ row ∈ s.events, row.processingStatus = .verified → Attended site s row

lemma inv_init (now : Time) (states : ℕ → Option UserSubscriptionState) : Inv site (init now states) where
  rows := rows_init now states
  ids _ h := nomatch h
  spelled _ h := nomatch h
  marks _ _ _ h := nomatch h
  fails _ h := nomatch h
  attended _ h := nomatch h

lemma phase_of_dies (hdies : Dies site s a p) (hundisturbed : Undisturbed site s a) :
    (s.handlers p).phase = none ∨ ∃ e, (s.handlers p).phase = some (e, .ready .processed) := by
  cases hdies with
  | raised ha =>
    subst ha
    have hmay : (s.handlers p).mayDie = true := hundisturbed
    cases hplace : s.handlers p with
    | idle | received d | verified e => exact .inl rfl
    | marking e status =>
      rw [hplace] at hmay
      cases status with
      | processed => exact .inr ⟨e, rfl⟩
      | verified | rejected | failed => cases hmay
    | recorded e | resolved e user | current e user status authority | loaded e user status authority state =>
      rw [hplace] at hmay
      cases hmay
  | unreadable ha e hplace hraises =>
    subst ha
    rw [Undisturbed, hplace] at hundisturbed
    exact absurd hraises hundisturbed
  | incomparable ha e user hplace t authority htime hauthority =>
    subst ha
    rw [Undisturbed, hplace] at hundisturbed
    simp [Place.Undisturbed, Comparable, htime, hauthority] at hundisturbed

lemma Attended.of_moved {row : PaymentEvent} {phase phase' : Phase} (h : Attended site s row)
    (hold : (s.handlers p).phase = some (e, phase)) (hkeys : s.appliedKeys site ⊆ s'.appliedKeys site)
    (hphase : ∀ q, (s'.handlers q).phase = if q = p then some (e, phase') else (s.handlers q).phase) :
    Attended site s' row := by
  rcases h with ⟨q, phase, hq⟩ | hmem
  · left
    by_cases hqp : q = p
    · subst hqp
      rw [hold] at hq
      cases hq
      exact ⟨q, _, by rw [hphase, if_pos rfl]⟩
    · exact ⟨q, phase, by rw [hphase, if_neg hqp]; exact hq⟩
  · exact .inr (hkeys hmem)

lemma appliedKeys_congr (happlied : s'.applied = s.applied) : s'.appliedKeys site = s.appliedKeys site := by
  rw [State.appliedKeys, happlied]
  rfl

lemma Inv.of_recorded (h : Inv site s) (hrows : Rows site s') (hproper : Proper site s e)
    (hidle : (s.handlers p).phase = none) (hevents : s'.events = s.events ++ [newRow site s e])
    (happlied : s'.applied = s.applied)
    (hphase : ∀ q, (s'.handlers q).phase = if q = p then some (e, .before) else (s.handlers q).phase) :
    Inv site s' := by
  obtain ⟨hid, hcolon, hstorable, hspelled⟩ := hproper
  have hcases : ∀ row ∈ s'.events, row ∈ s.events ∨ row = newRow site s e := fun row hrow => by
    simpa [hevents] using hrow
  refine ⟨hrows, ?_, ?_, ?_, ?_, ?_⟩
  · intro row hrow
    rcases hcases row hrow with hrow | rfl
    · exact h.ids row hrow
    · exact ⟨hid, hcolon⟩
  · intro row hrow row' hrow' hupper
    rcases hcases row hrow with hrow | rfl <;> rcases hcases row' hrow' with hrow' | rfl
    · exact h.spelled row hrow row' hrow' hupper
    · exact (hspelled row hrow).spelled hupper
    · exact ((hspelled row' hrow').spelled hupper.symm).symm
    · rfl
  · intro q e' status hq
    rcases phase_of_moved hphase hq with ⟨-, -, hsame⟩ | ⟨-, hq⟩
    · cases hsame
    · exact h.marks q e' status hq
  · intro row hrow
    rcases hcases row hrow with hrow | rfl
    · exact h.fails row hrow
    · nofun
  · intro row hrow hverified
    rcases hcases row hrow with hrow | rfl
    · rcases h.attended row hrow hverified with ⟨q, phase, hq⟩ | hmem
      · have hne : q ≠ p := by
          rintro rfl
          rw [hidle] at hq
          cases hq
        exact .inl ⟨q, phase, by rw [hphase, if_neg hne]; exact hq⟩
      · exact .inr (by rw [appliedKeys_congr happlied]; exact hmem)
    · exact .inl ⟨p, .before, by rw [hphase, if_pos rfl]; rfl⟩

lemma Inv.of_decided {status : ProcessingStatus} (h : Inv site s) (hrows : Rows site s')
    (hstatus : status = .processed ∨ status = .rejected) (hold : (s.handlers p).phase = some (e, .before))
    (hevents : s'.events = s.events) (hkeys : s.appliedKeys site ⊆ s'.appliedKeys site)
    (hphase : ∀ q, (s'.handlers q).phase = if q = p then some (e, .ready status) else (s.handlers q).phase) :
    Inv site s' := by
  refine ⟨hrows, by rw [hevents]; exact h.ids, by rw [hevents]; exact h.spelled, ?_,
    by rw [hevents]; exact h.fails, ?_⟩
  · intro q e' status' hq
    rcases phase_of_moved hphase hq with ⟨-, -, hsame⟩ | ⟨-, hq⟩
    · cases hsame
      exact hstatus
    · exact h.marks q e' status' hq
  · intro row hrow hverified
    rw [hevents] at hrow
    exact (h.attended row hrow hverified).of_moved hold hkeys hphase

lemma Inv.of_marked {status : ProcessingStatus} {now : Time} (h : Inv site s) (hrows : Rows site s')
    (hold : (s.handlers p).phase = some (e, .ready status))
    (hevents : s'.events = s.events.map (PaymentEvent.mark site e status now))
    (happlied : s'.applied = s.applied)
    (hphase : ∀ q, (s'.handlers q).phase = if q = p then none else (s.handlers q).phase) :
    Inv site s' := by
  have hcases : ∀ row' ∈ s'.events, ∃ row ∈ s.events, row' = row.mark site e status now := by
    intro row' hrow'
    rw [hevents] at hrow'
    obtain ⟨row, hrow, rfl⟩ := List.mem_map.mp hrow'
    exact ⟨row, hrow, rfl⟩
  refine ⟨hrows, ?_, ?_, ?_, ?_, ?_⟩
  · intro row' hrow'
    obtain ⟨row, hrow, rfl⟩ := hcases row' hrow'
    rw [event_mark]
    exact h.ids row hrow
  · intro row₁ hrow₁ row₂ hrow₂
    obtain ⟨row, hrow, rfl⟩ := hcases row₁ hrow₁
    obtain ⟨row', hrow', rfl⟩ := hcases row₂ hrow₂
    rw [event_mark, event_mark]
    exact h.spelled row hrow row' hrow'
  · intro q e' status' hq
    exact h.marks q e' status' (phase_of_stopped hphase hq).2
  · intro row' hrow'
    obtain ⟨row, hrow, rfl⟩ := hcases row' hrow'
    rw [status_mark]
    split
    · rcases h.marks p e status hold with rfl | rfl <;> nofun
    · exact h.fails row hrow
  · intro row' hrow' hverified
    obtain ⟨row, hrow, rfl⟩ := hcases row' hrow'
    rw [status_mark] at hverified
    split at hverified
    · rcases h.marks p e status hold with rfl | rfl <;> cases hverified
    · rename_i hkey
      rcases h.attended row hrow hverified with ⟨q, phase, hq⟩ | hmem
      · have hne : q ≠ p := by
          rintro rfl
          rw [hold] at hq
          obtain ⟨rfl, -⟩ := Prod.mk.inj (Option.some.inj hq)
          exact hkey (h.rows.key row hrow)
        exact .inl ⟨q, phase, by rw [hphase, if_neg hne, event_mark]; exact hq⟩
      · exact .inr (by rw [appliedKeys_congr happlied, key_mark]; exact hmem)

lemma Inv.of_died (h : Inv site s) (hrows : Rows site s')
    (hdies : (s.handlers p).phase = none ∨ ∃ e, (s.handlers p).phase = some (e, .ready .processed))
    (hevents : s'.events = s.events) (happlied : s'.applied = s.applied)
    (hphase : ∀ q, (s'.handlers q).phase = if q = p then none else (s.handlers q).phase) :
    Inv site s' := by
  refine ⟨hrows, by rw [hevents]; exact h.ids, by rw [hevents]; exact h.spelled, ?_,
    by rw [hevents]; exact h.fails, ?_⟩
  · intro q e status hq
    exact h.marks q e status (phase_of_stopped hphase hq).2
  · intro row hrow hverified
    rw [hevents] at hrow
    rw [Attended, appliedKeys_congr happlied]
    rcases h.attended row hrow hverified with ⟨q, phase, hq⟩ | hmem
    · by_cases hqp : q = p
      · subst hqp
        rcases hdies with hnone | ⟨e, he⟩
        · rw [hnone] at hq
          cases hq
        · rw [he] at hq
          obtain ⟨rfl, -⟩ := Prod.mk.inj (Option.some.inj hq)
          exact .inr (by rw [h.rows.key row hrow]; exact (h.rows.ready q _ _ he).mp rfl)
      · exact .inl ⟨q, phase, by rw [hphase, if_neg hqp]; exact hq⟩
    · exact .inr hmem

lemma inv_step (s : State) (a : Action) (h : Inv site s) (hundisturbed : Undisturbed site s a) :
    Inv site (step site s a) := by
  have hrows := rows_step s a h.rows
  cases step_effect site s a with
  | quiet hevents happlied hphase =>
    refine ⟨hrows, by rw [hevents]; exact h.ids, by rw [hevents]; exact h.spelled, ?_,
      by rw [hevents]; exact h.fails, ?_⟩
    · intro p e status
      rw [hphase]
      exact h.marks p e status
    · intro row hrow hverified
      rw [hevents] at hrow
      rw [Attended, appliedKeys_congr happlied]
      simp only [hphase]
      exact h.attended row hrow hverified
  | recorded p e ha hplace hfresh hevents happlied hphase =>
    subst ha
    rw [Undisturbed, hplace] at hundisturbed
    exact h.of_recorded hrows hundisturbed (by rw [hplace]; rfl) hevents happlied hphase
  | refused p e status hold hstatus hevents happlied hphase =>
    have hrejected : status = .rejected := by
      refine hstatus.resolve_right ?_
      rintro ⟨-, rfl⟩
      cases hundisturbed
    subst hrejected
    refine h.of_decided hrows (.inr rfl) hold hevents ?_ hphase
    rw [appliedKeys_congr happlied]
    exact fun _ h => h
  | saved p e user hold hevents happlied hphase =>
    refine h.of_decided hrows (.inl rfl) hold hevents ?_ hphase
    rw [State.appliedKeys, State.appliedKeys, happlied, List.map_append]
    exact fun _ h => List.mem_append_left _ h
  | marked p e status now hold hevents happlied hphase =>
    exact h.of_marked hrows hold hevents happlied hphase
  | died p hdies hevents happlied hphase =>
    exact h.of_died hrows (phase_of_dies hdies hundisturbed) hevents happlied hphase

lemma inv_run {now : Time} {states : ℕ → Option UserSubscriptionState} {as : List Action}
    (has : StepsMeet (step site) (Undisturbed site) (init now states) as) :
    Inv site (run (step site) (init now states) as) :=
  run_invariant_of_meets inv_step (inv_init now states) has

/-! ### What follows for the events -/

lemma Inv.nodup_identity (h : Inv site s) (hlawful : site.Lawful) :
    (s.applied.map fun a => a.1.identity site).Nodup := by
  have hkeys := h.rows.applied
  rw [State.appliedKeys, List.Nodup, List.pairwise_map] at hkeys
  rw [List.Nodup, List.pairwise_map]
  refine hkeys.imp_of_mem fun {a b} ha hb hne hidentity => hne ?_
  obtain ⟨row, hrow, hevent⟩ := h.rows.recorded a ha
  obtain ⟨row', hrow', hevent'⟩ := h.rows.recorded b hb
  have hid := (h.ids row hrow).1
  rw [hevent] at hid
  refine key_of_identity hlawful hid (fun hupper => ?_) hidentity
  rw [← hevent, ← hevent']
  exact h.spelled row hrow row' hrow' (by rw [hevent, hevent']; exact hupper)

lemma Inv.applied_of_key (h : Inv site s) {row : PaymentEvent} (hrow : row ∈ s.events)
    (hmem : row.idempotencyKey ∈ s.appliedKeys site) : ∃ user, (row.event, user) ∈ s.applied := by
  obtain ⟨a, ha, hkey⟩ := List.mem_map.mp hmem
  obtain ⟨row', hrow', hevent⟩ := h.rows.recorded a ha
  have hsame : row' = row := by
    refine h.rows.eq_of_key hrow' hrow ?_
    rw [h.rows.key row' hrow', hevent]
    exact hkey
  refine ⟨a.2, ?_⟩
  rw [← hsame, hevent]
  exact ha

lemma Inv.settled (h : Inv site s) {row : PaymentEvent} (hrow : row ∈ s.events)
    (hidle : ∀ p phase, (s.handlers p).phase ≠ some (row.event, phase)) : Settled s row.event := by
  cases hstatus : row.processingStatus with
  | verified =>
    rcases h.attended row hrow hstatus with ⟨p, phase, hp⟩ | hmem
    · exact absurd hp (hidle p phase)
    · exact .inl (h.applied_of_key hrow hmem)
  | rejected => exact .inr ⟨row, hrow, rfl, hstatus⟩
  | failed => exact absurd hstatus (h.fails row hrow)
  | processed => exact .inl (h.applied_of_key hrow (h.rows.processed row hrow hstatus))

lemma Inv.identity_eq (h : Inv site s) (hlawful : site.Lawful) (hproper : Proper site s e)
    {row : PaymentEvent} (hrow : row ∈ s.events) (hkey : row.idempotencyKey = e.idempotencyKey site) :
    row.event.identity site = e.identity site := by
  obtain ⟨hid, hcolon⟩ := h.ids row hrow
  rw [h.rows.key row hrow] at hkey
  exact identity_of_rawKey hlawful hid hproper.1 hcolon hproper.2.1
    ((hproper.2.2.2 row hrow).hash hkey)

/-! ### A delivery that is handled in peace -/

lemma handlers_step (hne : a.handler ≠ some q) : (step site s a).handlers q = s.handlers q := by
  have hgoto : ∀ (s' : State) (p : ℕ) (place : Place), some p ≠ some q →
      (s'.goto p place).handlers q = s'.handlers q := by
    intro s' p place hpq
    exact Function.update_of_ne (fun h => hpq (by rw [h])) _ _
  cases a with
  | tick t => rfl
  | deliver p d | load p | mark p =>
    simp only [step]
    split
    · exact hgoto _ p _ hne
    · rfl
  | verify p | resolve p =>
    simp only [step]
    split
    · split <;> exact hgoto _ p _ hne
    · rfl
  | record p =>
    simp only [step]
    split
    · split
      · exact hgoto _ p _ hne
      · split <;> exact hgoto _ p _ hne
    · rfl
  | check p =>
    simp only [step]
    split
    · unfold State.checkOrdering
      dsimp only
      (repeat' split) <;> exact hgoto _ p _ hne
    · rfl
  | save p saves =>
    simp only [step]
    split
    · split <;> exact hgoto _ p _ hne
    · rfl
  | raise p => exact hgoto _ p _ hne

lemma handlers_run (as : List Action) (hne : ∀ a ∈ as, a.handler ≠ some q) :
    (run (step site) s as).handlers q = s.handlers q := by
  induction as generalizing s with
  | nil => rfl
  | cons a as ih =>
    rw [run_cons, ih fun b hb => hne b (List.mem_cons_of_mem a hb)]
    exact handlers_step (hne a List.mem_cons_self)

/-- Records are never deleted. -/
lemma mem_events_step (site : Site) (a : Action) {row : PaymentEvent} (hrow : row ∈ s.events) :
    ∃ row' ∈ (step site s a).events, row'.event = row.event := by
  cases step_effect site s a with
  | quiet hevents | refused _ _ _ _ _ hevents | saved _ _ _ _ hevents | died _ _ hevents =>
    exact ⟨row, by rw [hevents]; exact hrow, rfl⟩
  | recorded p e _ _ _ hevents => exact ⟨row, by rw [hevents]; exact List.mem_append_left _ hrow, rfl⟩
  | marked p e status now _ hevents =>
    exact ⟨_, by rw [hevents]; exact List.mem_map_of_mem hrow, event_mark status now row⟩

lemma mem_events_run (site : Site) {row : PaymentEvent} (hrow : row ∈ s.events) (as : List Action) :
    ∃ row' ∈ (run (step site) s as).events, row'.event = row.event := by
  induction as generalizing s row with
  | nil => exact ⟨row, hrow, rfl⟩
  | cons a as ih =>
    obtain ⟨row', hrow', hevent⟩ := mem_events_step site a hrow
    obtain ⟨row'', hrow'', hevent'⟩ := ih hrow'
    exact ⟨row'', hrow'', hevent'.trans hevent⟩

/-- How many steps a handler has before it at most. -/
def Place.left : Place → ℕ
  | .idle => 0
  | .marking .. => 1
  | .loaded .. => 2
  | .current .. => 3
  | .resolved .. => 4
  | .recorded _ => 5
  | .received _ | .verified _ => 6

lemma handlers_goto_self (place : Place) : (s.goto p place).handlers p = place := Function.update_self ..

lemma left_mark (site : Site) (h : (s.handlers p).left ≤ 1) : ((step site s (.mark p)).handlers p).left = 0 := by
  cases hplace : s.handlers p <;> simp_all [step, Place.left, State.goto]

lemma left_save (site : Site) (h : (s.handlers p).left ≤ 2) : ((step site s (.save p true)).handlers p).left ≤ 1 := by
  cases hplace : s.handlers p <;> simp_all [step, Place.left, State.goto]

lemma left_load (site : Site) (h : (s.handlers p).left ≤ 3) : ((step site s (.load p)).handlers p).left ≤ 2 := by
  cases hplace : s.handlers p <;> simp_all [step, Place.left, State.goto]

lemma left_check (site : Site) (h : (s.handlers p).left ≤ 4) : ((step site s (.check p)).handlers p).left ≤ 3 := by
  cases hplace : s.handlers p with
  | resolved e user =>
    have hstep : step site s (.check p) = s.checkOrdering site p e user := by simp [step, hplace]
    rw [hstep, State.checkOrdering]
    (repeat' split) <;> simp [handlers_goto_self, Place.left]
  | _ => simp_all [step, Place.left]

lemma left_resolve (site : Site) (h : (s.handlers p).left ≤ 5) : ((step site s (.resolve p)).handlers p).left ≤ 4 := by
  cases hplace : s.handlers p with
  | recorded e =>
    simp only [step, hplace]
    split <;> simp [handlers_goto_self, Place.left]
  | _ => simp_all [step, Place.left]

lemma idle_of_handling (h : (s.handlers p).left ≤ 5) :
    ((run (step site) s [.resolve p, .check p, .load p, .save p true, .mark p]).handlers p).phase = none := by
  have hleft := left_mark site (left_save site (left_load site (left_check site (left_resolve site h))))
  rw [run_cons, run_cons, run_cons, run_cons, run_cons, run_nil]
  cases hplace : (step site (step site (step site (step site (step site s (.resolve p)) (.check p))
    (.load p)) (.save p true)) (.mark p)).handlers p <;> simp_all [Place.left, Place.phase]

lemma Inv.redelivered (h : Inv site s) (hlawful : site.Lawful) (hplace : s.handlers p = .verified e)
    (hun : Unsettled site s e) (hmeets : StepsMeet (step site) (Undisturbed site) s (handling p)) :
    Settled (run (step site) s (handling p)) e := by
  have hproper : Proper site s e := by
    have hfirst := hmeets.1
    rwa [Undisturbed, hplace] at hfirst
  -- nothing is recorded under its key
  have hfresh : s.events.any (·.idempotencyKey = e.idempotencyKey site) = false := by
    rw [List.any_eq_false]
    intro row hrow hkey
    have hidentity := h.identity_eq hlawful hproper hrow (of_decide_eq_true hkey)
    have hidle : ∀ q phase, (s.handlers q).phase ≠ some (row.event, phase) := fun q phase hq =>
      hun.working q row.event phase hq hidentity
    rcases h.settled hrow hidle with ⟨user, happlied⟩ | ⟨row', hrow', hevent, hrejected⟩
    · exact hun.applied _ happlied hidentity
    · exact hun.rejected row' hrow' (by rw [hevent]; exact hidentity) hrejected
  have hstep : step site s (.record p) =
      ({ s with events := s.events ++ [newRow site s e] } : State).goto p (.recorded e) := by
    simp [step, hplace, hproper.2.2.1, hfresh, newRow]
  have hrow : newRow site s e ∈ (step site s (.record p)).events := by
    rw [hstep]
    exact List.mem_append_right _ List.mem_cons_self
  have hlater := run_invariant_of_meets inv_step h hmeets
  have hown : ((run (step site) s (handling p)).handlers p).phase = none := by
    refine idle_of_handling ?_
    rw [hstep, handlers_goto_self]
    exact Nat.le_refl _
  have hothers : ∀ q, q ≠ p → (run (step site) s (handling p)).handlers q = s.handlers q := by
    intro q hq
    refine handlers_run _ fun a ha => ?_
    simp only [handling, List.mem_cons, List.not_mem_nil, or_false] at ha
    rcases ha with rfl | rfl | rfl | rfl | rfl | rfl <;> exact fun heq => hq (Option.some.inj heq).symm
  obtain ⟨row', hrow', hevent⟩ := mem_events_run site hrow
    [.resolve p, .check p, .load p, .save p true, .mark p]
  have hidle : ∀ q phase,
      ((run (step site) s (handling p)).handlers q).phase ≠ some (row'.event, phase) := by
    intro q phase hq
    rw [hevent] at hq
    by_cases hqp : q = p
    · rw [hqp, hown] at hq
      cases hq
    · rw [hothers q hqp] at hq
      exact hun.working q _ phase hq rfl
  have hsettled := hlater.settled hrow' hidle
  rw [hevent] at hsettled
  exact hsettled

/-! ### Nothing before the signature -/

/-- Where a handler may be after a step. -/
inductive Moved (site : Site) (s : State) (a : Action) (p : ℕ) (place : Place) : Prop
  | stays (h : place = s.handlers p)
  | delivered (d : Delivery) (ha : a = .deliver p d) (h : place = .received d)
  | verified (d : Delivery) (e : Event) (hold : s.handlers p = .received d)
      (hreceived : received site d = some e) (h : place = .verified e)
  | stops (h : place = .idle)
  | goesOn (e : Event) (hold : (s.handlers p).event? = some e) (h : place.event? = some e)
      (hplace : ∀ d, place ≠ .received d)

lemma place_step (site : Site) (s : State) (a : Action) (p : ℕ) :
    Moved site s a p ((step site s a).handlers p) := by
  by_cases hne : a.handler = some p
  swap
  · exact .stays (handlers_step hne)
  cases a with
  | tick t => cases hne
  | deliver q d =>
    obtain rfl : q = p := Option.some.inj hne
    simp only [step]
    split
    · exact .delivered d rfl (handlers_goto_self _)
    · exact .stays rfl
  | verify q =>
    obtain rfl : q = p := Option.some.inj hne
    simp only [step]
    split
    · rename_i d hplace
      split
      · exact .stops (handlers_goto_self _)
      · rename_i e hreceived
        exact .verified d e hplace hreceived (handlers_goto_self _)
    · exact .stays rfl
  | record q =>
    obtain rfl : q = p := Option.some.inj hne
    simp only [step]
    split
    · rename_i e hplace
      split
      · exact .stops (handlers_goto_self _)
      · split
        · exact .stops (handlers_goto_self _)
        · rw [handlers_goto_self]
          exact .goesOn e (by rw [hplace]; rfl) rfl (by simp)
    · exact .stays rfl
  | resolve q =>
    obtain rfl : q = p := Option.some.inj hne
    simp only [step]
    split
    · rename_i e hplace
      have hold : (s.handlers q).event? = some e := by rw [hplace]; rfl
      split
      · exact .stops (handlers_goto_self _)
      · rw [handlers_goto_self]
        exact .goesOn e hold rfl (by simp)
      · rw [handlers_goto_self]
        exact .goesOn e hold rfl (by simp)
    · exact .stays rfl
  | check q =>
    obtain rfl : q = p := Option.some.inj hne
    simp only [step]
    split
    · rename_i e user hplace
      have hold : (s.handlers q).event? = some e := by rw [hplace]; rfl
      unfold State.checkOrdering
      dsimp only
      (repeat' split) <;> rw [handlers_goto_self] <;>
        first | exact .goesOn e hold rfl (by simp) | exact .stops rfl
    · exact .stays rfl
  | load q =>
    obtain rfl : q = p := Option.some.inj hne
    simp only [step]
    split
    · rename_i e user status authority hplace
      rw [handlers_goto_self]
      exact .goesOn e (by rw [hplace]; rfl) rfl (by simp)
    · exact .stays rfl
  | save q saves =>
    obtain rfl : q = p := Option.some.inj hne
    simp only [step]
    split
    · rename_i e user status authority state hplace
      split <;> rw [handlers_goto_self] <;> exact .goesOn e (by rw [hplace]; rfl) rfl (by simp)
    · exact .stays rfl
  | mark q =>
    obtain rfl : q = p := Option.some.inj hne
    simp only [step]
    split
    · exact .stops (handlers_goto_self _)
    · exact .stays rfl
  | raise q =>
    obtain rfl : q = p := Option.some.inj hne
    exact .stops (handlers_goto_self _)

lemma delivered_run (site : Site) {now : Time} {states : ℕ → Option UserSubscriptionState}
    (as : List Action) (p : ℕ) :
    (∀ d, (run (step site) (init now states) as).handlers p = .received d → Action.deliver p d ∈ as) ∧
      ∀ e, ((run (step site) (init now states) as).handlers p).event? = some e →
        ∃ d, Action.deliver p d ∈ as ∧ received site d = some e := by
  induction as using List.reverseRecOn with
  | nil => exact ⟨fun d h => (nomatch h), fun e h => (nomatch h)⟩
  | append_singleton as a ih =>
    have hmem : ∀ b ∈ as, b ∈ as ++ [a] := fun b hb => List.mem_append_left _ hb
    rw [run_concat]
    cases place_step site (run (step site) (init now states) as) a p with
    | stays h =>
      rw [h]
      refine ⟨fun d hd => hmem _ (ih.1 d hd), fun e he => ?_⟩
      obtain ⟨d, hd, hreceived⟩ := ih.2 e he
      exact ⟨d, hmem _ hd, hreceived⟩
    | delivered d ha h =>
      rw [h]
      refine ⟨fun d' hd => ?_, fun e he => (nomatch he)⟩
      cases hd
      exact List.mem_append_right _ (by rw [ha]; exact List.mem_cons_self)
    | verified d e hold hreceived h =>
      rw [h]
      refine ⟨fun d' hd => (nomatch hd), fun e' he => ?_⟩
      cases he
      exact ⟨d, hmem _ (ih.1 d hold), hreceived⟩
    | stops h =>
      rw [h]
      exact ⟨fun d hd => (nomatch hd), fun e he => (nomatch he)⟩
    | goesOn e hold h hplace =>
      refine ⟨fun d hd => absurd hd (hplace d), fun e' he => ?_⟩
      rw [h] at he
      cases he
      obtain ⟨d, hd, hreceived⟩ := ih.2 e hold
      exact ⟨d, hmem _ hd, hreceived⟩

lemma handler_of_changes (h : Changes s (step site s a)) :
    ∃ p e, a.handler = some p ∧ (s.handlers p).event? = some e := by
  have hsame : ∀ {s' : State}, s'.events = s.events → s'.states = s.states → s'.applied = s.applied →
      ¬ Changes s s' := by
    rintro s' hevents hstates happlied (h | h | h)
    · exact h hevents
    · exact h hstates
    · exact h happlied
  revert h
  cases a with
  | tick t => exact fun h => absurd h (hsame rfl rfl rfl)
  | raise p => exact fun h => absurd h (hsame rfl rfl rfl)
  | deliver p d =>
    simp only [step]
    split <;> exact fun h => absurd h (hsame rfl rfl rfl)
  | verify p =>
    simp only [step]
    split
    · split <;> exact fun h => absurd h (hsame rfl rfl rfl)
    · exact fun h => absurd h (hsame rfl rfl rfl)
  | resolve p =>
    simp only [step]
    split
    · split <;> exact fun h => absurd h (hsame rfl rfl rfl)
    · exact fun h => absurd h (hsame rfl rfl rfl)
  | record p | load p | save p saves | mark p | check p =>
    intro h
    cases hplace : s.handlers p with
    | idle | received d => simp [step, hplace, Changes] at h
    | verified e | recorded e | resolved e | current e | loaded e | marking e =>
      exact ⟨p, e, rfl, by rw [hplace]; rfl⟩

end

/-- **A verified event is applied once and never swallowed**, in every run in which the events are recorded
under ids of their own and no handler is interrupted after it has recorded its event.  What is changed is
changed by handlers of bodies whose signatures have been verified. -/
theorem applied_once (site : Site) (hlawful : site.Lawful) (now : Time)
    (states : ℕ → Option UserSubscriptionState) (as : List Action)
    (h : StepsMeet (step site) (Undisturbed site) (init now states) as) :
    AppliedOnce site (init now states) as := by
  have hinv : ∀ pre post, as = pre ++ post → Inv site (run (step site) (init now states) pre) := by
    rintro pre post rfl
    exact inv_run (stepsMeet_append.mp h).1
  refine ⟨?_, ?_, ?_, ?_, ?_⟩
  · rintro pre ⟨post, rfl⟩
    exact (hinv pre post rfl).nodup_identity hlawful
  · rintro pre ⟨post, rfl⟩ row hrow
    exact (hinv pre post rfl).settled hrow
  · rintro pre ⟨post, rfl⟩ p e hplace hun hmeets
    rw [run_append]
    exact (hinv pre post rfl).redelivered hlawful hplace hun hmeets
  · rintro pre p post rfl e hplace row hrow
    have hproper := (stepsMeet_append.mp h).2.1
    rw [Undisturbed, hplace] at hproper
    exact (hinv pre _ rfl).identity_eq hlawful hproper hrow
  · rintro pre a post rfl hchanges
    rw [run_concat] at hchanges
    obtain ⟨p, e, ha, he⟩ := handler_of_changes hchanges
    obtain ⟨d, hd, hreceived⟩ := (delivered_run site pre p).2 e he
    exact ⟨p, e, d, ha, he, hd, hreceived⟩

/-! ### An event that is swallowed -/

def sampleBody : String :=
  "\x7b\"id\":\"evt_1\",\"user_id\":7,\"created\":10,\"status\":\"active\"\x7d"

def samplePayload : Fields :=
  [("id", .str "evt_1"), ("user_id", .int 7), ("created", .int 10), ("status", .str "active")]

/-- What the library makes of the sample, and a provider with a secret. -/
def sampleSite : Site where
  loads := fun body => if body = sampleBody then some samplePayload else none
  str := fun
    | .str text => text
    | .int n => toString n
    | _ => ""
  truthy := fun
    | .int n => n ≠ 0
    | _ => true
  timestamp := fun
    | .int n => some (.aware n)
    | _ => none
  strTimestamp := fun _ => "1970-01-01 00:00:10+00:00"
  upper := fun name => if name = "stripe" then "STRIPE" else name
  sha256 := fun raw =>
    if raw = "stripe:evt_1" then "086cb4b9c326916d9ad59cdb4bb87d10fa13178249642fdaecdd92c8ba3f9610" else raw
  hmac := fun secret body =>
    if secret = "whsec_test" ∧ body = sampleBody then
      "63fb0ce1d4be1d49ca3fffaf5b10373ac5d108b85f0b6c344bc89563f1b82ed0"
    else ""
  setting := fun name => if name = "PAYMENT_WEBHOOK_SECRET_STRIPE" then "whsec_test" else ""
  users := fun
    | .int 7 => .found 7
    | _ => .missing
  storable := fun _ => true

def sampleDelivery : Delivery where
  providerName := "stripe"
  body := sampleBody
  webhookSignature := "63fb0ce1d4be1d49ca3fffaf5b10373ac5d108b85f0b6c344bc89563f1b82ed0"

/-- A delivery that is handled, and a second one of the same event. -/
def deliveredTwice : List Action :=
  ([.tick 12, .deliver 1 sampleDelivery, .verify 1] : List Action) ++ handling 1 ++
    ([.deliver 2 sampleDelivery, .verify 2] : List Action) ++ handling 2

theorem applied_once_deliveredTwice :
    AppliedOnce sampleSite (init 0 fun _ => none) deliveredTwice :=
  applied_once sampleSite ⟨fun _ => rfl⟩ 0 (fun _ => none) deliveredTwice (by decide +kernel)

/-- The handler dies after it has recorded the event, which is then delivered again. -/
def interrupted : List Action :=
  ([.tick 12, .deliver 1 sampleDelivery, .verify 1, .record 1, .raise 1, .deliver 2 sampleDelivery,
    .verify 2] : List Action) ++ handling 2

lemma interrupted_state :
    let s := run (step sampleSite) (init 0 fun _ => none) interrupted
    s.applied.isEmpty = true ∧ s.events.map (·.processingStatus) = [.verified] ∧
      (s.handlers 1).phase.isNone = true ∧ (s.handlers 2).phase.isNone = true := by
  decide +kernel

/-- The second delivery is a duplicate, and the event is swallowed. -/
theorem not_applied_once :
    ¬ ∀ (site : Site), site.Lawful → ∀ (now : Time) (states : ℕ → Option UserSubscriptionState)
      (as : List Action), AppliedOnce site (init now states) as := by
  intro h
  have hsettled := (h sampleSite ⟨fun _ => rfl⟩ 0 (fun _ => none) interrupted).settled interrupted
    (List.prefix_refl _)
  obtain ⟨happlied, hstatuses, hone, htwo⟩ := interrupted_state
  obtain ⟨row, hevents, hstatus⟩ := List.map_eq_singleton_iff.mp hstatuses
  have hidle : ∀ p phase, ((run (step sampleSite) (init 0 fun _ => none) interrupted).handlers p).phase ≠
      some (row.event, phase) := by
    intro p phase hp
    by_cases h1 : p = 1
    · rw [h1, Option.isNone_iff_eq_none.mp hone] at hp
      cases hp
    · by_cases h2 : p = 2
      · rw [h2, Option.isNone_iff_eq_none.mp htwo] at hp
        cases hp
      · have hall : ∀ a ∈ interrupted, a.handler = none ∨ a.handler = some 1 ∨ a.handler = some 2 := by
          decide
        rw [handlers_run interrupted fun a ha heq => ?_] at hp
        · cases hp
        · rcases hall a ha with hn | hn | hn <;> rw [hn] at heq
          · cases heq
          · exact h1 (Option.some.inj heq).symm
          · exact h2 (Option.some.inj heq).symm
  rcases hsettled row (by rw [hevents]; exact List.mem_singleton_self _) hidle with
    ⟨user, hmem⟩ | ⟨row', hrow', -, hrejected⟩
  · rw [List.isEmpty_iff.mp happlied] at hmem
    cases hmem
  · rw [hevents, List.mem_singleton] at hrow'
    rw [hrow', hstatus] at hrejected
    cases hrejected

end PaymentWebhooks
end GuvFX
