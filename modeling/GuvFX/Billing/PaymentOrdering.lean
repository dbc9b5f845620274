/-
# The latest event of a subscription

An event carries the time at which the provider has created it.  It is compared with the time at which the
last change of the subscription was saved, by the clock of this side: an event that was created before the
last one was saved is rejected, although it may be the newer one of the two.  And the comparison and the
save are separate steps, so that a newer event can be saved in between, and an older one over it.

In the runs in which neither happens, the saved events are in the order of their creation, an event that is
older than a saved one changes nothing, and the state in the end is that of the latest event.
-/
import GuvFX.Billing.PaymentDelivery

namespace GuvFX
namespace PaymentWebhooks

open Runs
open SignedBody (get Fields)

/-! ### Events of one user -/

def Event.createdAt (site : Site) (e : Event) : Time :=
  match e.providerTimestamp site with
  | some (.aware t) => t
  | _ => 0

/-- Events of one user with recognised statuses and pairwise distinct times. -/
structure Feed (site : Site) (user : ℕ) (events : List Event) : Prop where
  user : ∀ e ∈ events, e.resolveUser site = .found user
  status : ∀ e ∈ events, (e.status site).isSome = true
  aware : ∀ e ∈ events, e.providerTimestamp site = some (.aware (e.createdAt site))
  distinct : (events.map (·.createdAt site)).Nodup

def DistinctKeys (site : Site) (events : List Event) : Prop :=
  (events.map (·.idempotencyKey site)).Nodup

instance (site : Site) (events : List Event) : Decidable (DistinctKeys site events) :=
  inferInstanceAs (Decidable (List.Nodup _))

/-- What is delivered with a right signature is one of the events, and has been created before. -/
def Timely (site : Site) (events : List Event) (s : State) : Action → Prop
  | .deliver _ d => ∀ e, received site d = some e → e ∈ events ∧ e.createdAt site ≤ s.now
  | _ => True

/-! ### Runs in order -/

/-- The comparison of `_is_stale_event`. -/
def Stale (site : Site) (s : State) (e : Event) (user : ℕ) : Prop :=
  ∃ authority ∈ s.authority user, e.createdAt site < authority

def Newest (site : Site) (s : State) (e : Event) : Prop :=
  ∀ a ∈ s.applied, a.1.createdAt site < e.createdAt site

def Place.Ordered (site : Site) (s : State) : Place → Prop
  | .resolved e user => Newest site s e → ¬ Stale site s e user
  | .loaded e user _ _ _ => ¬ Stale site s e user
  | _ => True

/-- An event that is newer than those saved has been created after the last save when it is compared; what
is saved would still pass the comparison; and the database accepts what is saved. -/
def Ordered (site : Site) (s : State) : Action → Prop
  | .check p => (s.handlers p).Ordered site s
  | .save p saves => saves = true ∧ (s.handlers p).Ordered site s
  | _ => True

instance (site : Site) (s : State) (e : Event) (user : ℕ) : Decidable (Stale site s e user) :=
  inferInstanceAs (Decidable (∃ authority ∈ s.authority user, _ < authority))

instance (site : Site) (s : State) (e : Event) : Decidable (Newest site s e) :=
  inferInstanceAs (Decidable (∀ a ∈ s.applied, _ < _))

instance (site : Site) (s : State) : DecidablePred (Place.Ordered site s)
  | .resolved e user => inferInstanceAs (Decidable (Newest site s e → ¬ Stale site s e user))
  | .loaded e user .. => inferInstanceAs (Decidable (¬ Stale site s e user))
  | .idle | .received _ | .verified _ | .recorded _ | .current .. | .marking .. => .isTrue trivial

instance (site : Site) (s : State) : DecidablePred (Ordered site s)
  | .check _ => inferInstanceAs (Decidable (Place.Ordered site s _))
  | .save .. => inferInstanceAs (Decidable (_ ∧ Place.Ordered site s _))
  | .tick _ | .deliver .. | .verify _ | .record _ | .resolve _ | .load _ | .mark _ | .raise _ =>
    .isTrue trivial

/-! ### What is promised -/

def Handled (site : Site) (s : State) (e : Event) : Prop :=
  ∃ row ∈ s.events, row.idempotencyKey = e.idempotencyKey site ∧ row.processingStatus ≠ .verified

instance (site : Site) (s : State) (e : Event) : Decidable (Handled site s e) :=
  inferInstanceAs (Decidable (∃ row ∈ s.events, _ = _ ∧ _ ≠ _))

structure FollowsLatest (site : Site) (user : ℕ) (events : List Event) (s₀ : State)
    (as : List Action) : Prop where
  latest : ∀ pre, pre <+: as → (∀ e ∈ events, Handled site (run (step site) s₀ pre) e) →
    ∀ e ∈ events, (∀ e' ∈ events, e'.createdAt site ≤ e.createdAt site) →
      ∃ state, (run (step site) s₀ pre).states user = some state ∧
        e.status site = some state.planStatus
  /-- An event that is older than a saved one changes no subscription. -/
  older : ∀ pre a post, as = pre ++ a :: post → ∀ p e, a.handler = some p →
    ((run (step site) s₀ pre).handlers p).event? = some e →
    (∃ b ∈ (run (step site) s₀ pre).applied, e.createdAt site < b.1.createdAt site) →
    (run (step site) s₀ (pre ++ [a])).states = (run (step site) s₀ pre).states

section

variable {site : Site} {user : ℕ} {events : List Event} {s s' : State} {a : Action} {p : ℕ} {e : Event}

lemma Feed.eq_of_createdAt (hfeed : Feed site user events) {e' : Event} (he : e ∈ events) (he' : e' ∈ events)
    (h : e.createdAt site = e'.createdAt site) : e = e' :=
  List.inj_on_of_nodup_map hfeed.distinct he he' h

lemma DistinctKeys.eq_of_key (hkeys : DistinctKeys site events) {e' : Event} (he : e ∈ events)
    (he' : e' ∈ events) (h : e.idempotencyKey site = e'.idempotencyKey site) : e = e' :=
  List.inj_on_of_nodup_map hkeys he he' h

/-! ### What the runs keep -/

def Overtaken (site : Site) (s : State) (e : Event) : Prop :=
  ∃ b ∈ s.applied, e.createdAt site < b.1.createdAt site

def Place.Known (site : Site) (user : ℕ) (events : List Event) (s : State) : Place → Prop
  | .idle => True
  | .received d => ∀ e, PaymentWebhooks.received site d = some e → e ∈ events ∧ e.createdAt site ≤ s.now
  | .verified e | .recorded e => e ∈ events ∧ e.createdAt site ≤ s.now
  | .resolved e u => (e ∈ events ∧ e.createdAt site ≤ s.now) ∧ u = user
  | .current e u status _ | .loaded e u status _ _ =>
    (e ∈ events ∧ e.createdAt site ≤ s.now) ∧ u = user ∧ e.status site = some status
  | .marking e status =>
    (e ∈ events ∧ e.createdAt site ≤ s.now) ∧
      (status = .processed ∨ status = .rejected ∧ Overtaken site s e)

/-- What the runs in order keep. -/
structure Follows (site : Site) (user : ℕ) (events : List Event) (s : State) : Prop where
  places : ∀ p, (s.handlers p).Known site user events s
  known : ∀ row ∈ s.events, row.event ∈ events
  marks : ∀ row ∈ s.events, row.processingStatus ≠ .failed ∧
    (row.processingStatus = .rejected → Overtaken site s row.event)
  applied : ∀ b ∈ s.applied, b.1 ∈ events ∧ b.1.createdAt site ≤ s.now
  /-- The last change is not before the creation of what has been saved. -/
  authority : ∀ b ∈ s.applied, ∃ authority ∈ s.authority user, b.1.createdAt site ≤ authority
  sorted : s.applied.Pairwise fun b c => b.1.createdAt site < c.1.createdAt site
  status : ∀ b ∈ s.applied.getLast?, ∃ state, s.states user = some state ∧
    b.1.status site = some state.planStatus

lemma follows_init (now : Time) (states : ℕ → Option UserSubscriptionState) :
    Follows site user events (init now states) where
  places _ := trivial
  known _ h := nomatch h
  marks _ h := nomatch h
  applied _ h := nomatch h
  authority _ h := nomatch h
  sorted := List.Pairwise.nil
  status _ h := nomatch h

lemma Overtaken.mono (happlied : s.applied ⊆ s'.applied) (h : Overtaken site s e) : Overtaken site s' e := by
  obtain ⟨b, hb, hlt⟩ := h
  exact ⟨b, happlied hb, hlt⟩

lemma Place.Known.mono {place : Place} (hnow : s.now ≤ s'.now) (happlied : s.applied ⊆ s'.applied)
    (h : place.Known site user events s) : place.Known site user events s' := by
  cases place with
  | idle => trivial
  | received d => exact fun e he => ⟨(h e he).1, (h e he).2.trans hnow⟩
  | verified e | recorded e => exact ⟨h.1, h.2.trans hnow⟩
  | resolved e u | current e u status authority | loaded e u status authority state =>
    exact ⟨⟨h.1.1, h.1.2.trans hnow⟩, h.2⟩
  | marking e status =>
    refine ⟨⟨h.1.1, h.1.2.trans hnow⟩, h.2.imp_right fun hrejected => ?_⟩
    exact ⟨hrejected.1, hrejected.2.mono happlied⟩

lemma known_goto {place : Place} (h : ∀ q, (s.handlers q).Known site user events s')
    (hplace : place.Known site user events s') (q : ℕ) :
    ((s.goto p place).handlers q).Known site user events s' := by
  simp only [State.goto, Function.update_apply]
  split
  · exact hplace
  · exact h q

/-- A handler moves, and nothing else changes. -/
lemma Follows.goto {place : Place} (h : Follows site user events s)
    (hplace : place.Known site user events s) : Follows site user events (s.goto p place) :=
  ⟨known_goto h.places hplace, h.known, h.marks, h.applied, h.authority, h.sorted, h.status⟩

/-- The comparison, for an event of the feed. -/
lemma checkOrdering_eq {status : PlanStatus} (htime : e.providerTimestamp site = some (.aware (e.createdAt site)))
    (hstatus : e.status site = some status) :
    s.checkOrdering site p e user =
      if Stale site s e user then s.goto p (.marking e .rejected)
      else s.goto p (.current e user status (s.authority user)) := by
  rw [State.checkOrdering, htime, hstatus]
  cases hauthority : s.authority user with
  | none => simp [Stale, hauthority]
  | some authority => simp [Stale, hauthority]

lemma createdAt_ne (hfeed : Feed site user events) (hrows : Rows site s) (h : Follows site user events s)
    (he : e ∈ events) (hphase : (s.handlers p).phase = some (e, .before)) :
    ∀ b ∈ s.applied, b.1.createdAt site ≠ e.createdAt site := by
  intro b hb heq
  have hsame := hfeed.eq_of_createdAt (h.applied b hb).1 he heq
  exact hrows.before p e hphase (List.mem_map.mpr ⟨b, hb, by rw [hsame]⟩)

lemma overtaken_of_stale (hfeed : Feed site user events) (hrows : Rows site s)
    (h : Follows site user events s) (he : e ∈ events) (hplace : s.handlers p = .resolved e user)
    (hordered : Newest site s e → ¬ Stale site s e user) (hstale : Stale site s e user) :
    Overtaken site s e := by
  have hnot : ¬ Newest site s e := fun hnewest => hordered hnewest hstale
  simp only [Newest, not_forall, not_lt] at hnot
  obtain ⟨b, hb, hle⟩ := hnot
  have hne := createdAt_ne hfeed hrows h he (by rw [hplace]; rfl) b hb
  exact ⟨b, hb, lt_of_le_of_ne hle hne.symm⟩

lemma newest_of_not_stale (hfeed : Feed site user events) (hrows : Rows site s)
    (h : Follows site user events s) (he : e ∈ events) (hphase : (s.handlers p).phase = some (e, .before))
    (hstale : ¬ Stale site s e user) : Newest site s e := by
  intro b hb
  obtain ⟨authority, hauthority, hle⟩ := h.authority b hb
  have hnot : authority ≤ e.createdAt site := by
    by_contra hlt
    exact hstale ⟨authority, hauthority, not_le.mp hlt⟩
  exact lt_of_le_of_ne (hle.trans hnot) (createdAt_ne hfeed hrows h he hphase b hb)

lemma load_states {state : UserSubscriptionState} (h : s.states user = some state) :
    Function.update s.states user (some (s.loadState user)) = s.states := by
  rw [State.loadState, h, Option.getD_some, ← h]
  exact Function.update_eq_self user s.states

lemma Follows.state_of_applied (h : Follows site user events s) {b : Event × ℕ} (hb : b ∈ s.applied) :
    ∃ state, s.states user = some state := by
  obtain ⟨authority, hauthority, -⟩ := h.authority b hb
  cases hstate : s.states user with
  | none => simp [State.authority, hstate] at hauthority
  | some state => exact ⟨state, rfl⟩

lemma Follows.record (h : Follows site user events s) (hplace : s.handlers p = .verified e) :
    Follows site user events
      (({ s with events := s.events ++ [newRow site s e] } : State).goto p (.recorded e)) := by
  have hknown : e ∈ events ∧ e.createdAt site ≤ s.now := by
    have hp := h.places p
    rwa [hplace] at hp
  have hcases : ∀ row ∈ s.events ++ [newRow site s e], row ∈ s.events ∨ row = newRow site s e :=
    fun row hrow => by simpa using hrow
  refine ⟨known_goto (s := { s with events := s.events ++ [newRow site s e] }) h.places hknown,
    fun row hrow => ?_, fun row hrow => ?_, h.applied, h.authority, h.sorted, h.status⟩
  · rcases hcases row hrow with hrow | rfl
    · exact h.known row hrow
    · exact hknown.1
  · rcases hcases row hrow with hrow | rfl
    · exact h.marks row hrow
    · exact ⟨nofun, nofun⟩

lemma Follows.check (hfeed : Feed site user events) (hrows : Rows site s) (h : Follows site user events s)
    (hplace : s.handlers p = .resolved e user) (hordered : Newest site s e → ¬ Stale site s e user) :
    Follows site user events (s.checkOrdering site p e user) := by
  have hknown : e ∈ events ∧ e.createdAt site ≤ s.now := by
    have hp := h.places p
    rw [hplace] at hp
    exact hp.1
  obtain ⟨status, hstatus⟩ := Option.isSome_iff_exists.mp (hfeed.status e hknown.1)
  rw [checkOrdering_eq (hfeed.aware e hknown.1) hstatus]
  split
  · rename_i hstale
    exact h.goto ⟨hknown, .inr ⟨rfl, overtaken_of_stale hfeed hrows h hknown.1 hplace hordered hstale⟩⟩
  · exact h.goto ⟨hknown, rfl, hstatus⟩

lemma Follows.load {status : PlanStatus} {authority : Option Time} (h : Follows site user events s)
    (hplace : s.handlers p = .current e user status authority) :
    Follows site user events
      (({ s with states := Function.update s.states user (some (s.loadState user)) } : State).goto p
        (.loaded e user status authority (s.loadState user))) := by
  have hknown := h.places p
  rw [hplace] at hknown
  let created : State := { s with states := Function.update s.states user (some (s.loadState user)) }
  refine ⟨known_goto (s := created) h.places hknown, h.known, h.marks, h.applied, ?_, h.sorted, ?_⟩
  · -- what has been saved for the user is loaded as it is
    intro b hb
    obtain ⟨state, hstate⟩ := h.state_of_applied hb
    show ∃ authority ∈ (Function.update s.states user (some (s.loadState user)) user).bind _, _
    rw [load_states hstate]
    exact h.authority b hb
  · intro b hb
    show ∃ state, Function.update s.states user (some (s.loadState user)) user = some state ∧ _
    obtain ⟨state, hstate⟩ := h.state_of_applied (List.mem_of_getLast? hb)
    rw [load_states hstate]
    exact h.status b hb

lemma Follows.save {status : PlanStatus} {authority : Option Time} {state : UserSubscriptionState}
    (hfeed : Feed site user events) (hrows : Rows site s) (h : Follows site user events s)
    (hplace : s.handlers p = .loaded e user status authority state) (hstale : ¬ Stale site s e user) :
    Follows site user events
      (({ s with
          states := Function.update s.states user
            (some (applySubscriptionTransition site status (e.plan site) s.now state))
          applied := s.applied ++ [(e, user)] } : State).goto p (.marking e .processed)) := by
  have hplaces := h.places p
  rw [hplace] at hplaces
  obtain ⟨hknown, -, hstatus⟩ := hplaces
  have hnewest : Newest site s e :=
    newest_of_not_stale hfeed hrows h hknown.1 (p := p) (by rw [hplace]; rfl) hstale
  have hsub : s.applied ⊆ s.applied ++ [(e, user)] := List.subset_append_left _ _
  have hcases : ∀ b ∈ s.applied ++ [(e, user)], b ∈ s.applied ∨ b = (e, user) :=
    fun b hb => by simpa using hb
  have happlied : ∀ b ∈ s.applied ++ [(e, user)], b.1 ∈ events ∧ b.1.createdAt site ≤ s.now := by
    intro b hb
    rcases hcases b hb with hb | rfl
    · exact h.applied b hb
    · exact hknown
  let saved : State := { s with
    states := Function.update s.states user
      (some (applySubscriptionTransition site status (e.plan site) s.now state))
    applied := s.applied ++ [(e, user)] }
  have hlater : ∀ q, (s.handlers q).Known site user events saved := fun q =>
    Place.Known.mono (s := s) le_rfl hsub (h.places q)
  refine ⟨known_goto (s := saved) hlater ⟨hknown, .inl rfl⟩, h.known, fun row hrow => ?_, happlied, ?_, ?_, ?_⟩
  · exact ⟨(h.marks row hrow).1, fun hrejected => ((h.marks row hrow).2 hrejected).mono hsub⟩
  · -- the last change is now
    intro b hb
    refine ⟨s.now, ?_, (happlied b hb).2⟩
    show s.now ∈ (Function.update s.states user _ user).bind _
    rw [Function.update_self]
    rfl
  · show (s.applied ++ [(e, user)]).Pairwise _
    rw [List.pairwise_append]
    refine ⟨h.sorted, List.pairwise_singleton _ _, fun b hb c hc => ?_⟩
    rw [List.mem_singleton.mp hc]
    exact hnewest b hb
  · intro b hb
    have hlast : b = (e, user) := by
      have : (s.applied ++ [(e, user)]).getLast? = some b := hb
      simpa using this.symm
    rw [hlast]
    exact ⟨_, Function.update_self .., hstatus⟩

lemma Follows.mark {status : ProcessingStatus} (hrows : Rows site s) (h : Follows site user events s)
    (hplace : s.handlers p = .marking e status) :
    Follows site user events
      (({ s with events := s.events.map (PaymentEvent.mark site e status s.now) } : State).goto p .idle) := by
  have hknown := h.places p
  rw [hplace] at hknown
  have hcases : ∀ row' ∈ s.events.map (PaymentEvent.mark site e status s.now),
      ∃ row ∈ s.events, row' = row.mark site e status s.now := by
    intro row' hrow'
    obtain ⟨row, hrow, rfl⟩ := List.mem_map.mp hrow'
    exact ⟨row, hrow, rfl⟩
  refine ⟨known_goto (s := { s with events := s.events.map (PaymentEvent.mark site e status s.now) }) h.places
    trivial, fun row' hrow' => ?_, fun row' hrow' => ?_, h.applied, h.authority, h.sorted, h.status⟩
  · obtain ⟨row, hrow, rfl⟩ := hcases row' hrow'
    rw [event_mark]
    exact h.known row hrow
  · obtain ⟨row, hrow, rfl⟩ := hcases row' hrow'
    rw [status_mark, event_mark]
    split
    · -- it is the record that the handler has created
      rename_i hkey
      obtain ⟨own, hown, hevent, -⟩ := hrows.working p e (.ready status) (by rw [hplace]; rfl)
      have hsame : row = own :=
        hrows.eq_of_key hrow hown (by rw [hkey, hrows.key own hown, hevent])
      rw [hsame, hevent]
      rcases hknown.2 with rfl | ⟨rfl, hovertaken⟩
      · exact ⟨nofun, nofun⟩
      · exact ⟨nofun, fun _ => hovertaken⟩
    · exact h.marks row hrow

lemma follows_step (hfeed : Feed site user events) (hrows : Rows site s) (h : Follows site user events s)
    (htimely : Timely site events s a) (hordered : Ordered site s a) :
    Follows site user events (step site s a) := by
  cases a with
  | tick t =>
    have hnow : s.now ≤ max s.now t := le_max_left _ _
    refine ⟨fun q => (h.places q).mono hnow fun _ hb => hb, h.known, h.marks, fun b hb => ?_, h.authority,
      h.sorted, h.status⟩
    exact ⟨(h.applied b hb).1, (h.applied b hb).2.trans hnow⟩
  | deliver p d =>
    simp only [step]
    split
    · exact h.goto htimely
    · exact h
  | verify p =>
    simp only [step]
    split
    · rename_i d hplace
      split
      · exact h.goto trivial
      · rename_i e hreceived
        have hknown := h.places p
        rw [hplace] at hknown
        exact h.goto (hknown e hreceived)
    · exact h
  | record p =>
    simp only [step]
    split
    · rename_i e hplace
      split
      · exact h.goto trivial
      · split
        · exact h.goto trivial
        · exact h.record hplace
    · exact h
  | resolve p =>
    simp only [step]
    split
    · rename_i e hplace
      have hknown := h.places p
      rw [hplace] at hknown
      rw [hfeed.user e hknown.1]
      exact h.goto ⟨hknown, rfl⟩
    · exact h
  | check p =>
    simp only [step]
    split
    · rename_i e u hplace
      obtain rfl : u = user := by
        have hknown := h.places p
        rw [hplace] at hknown
        exact hknown.2
      rw [Ordered, hplace] at hordered
      exact h.check hfeed hrows hplace hordered
    · exact h
  | load p =>
    simp only [step]
    split
    · rename_i e u status authority hplace
      obtain rfl : u = user := by
        have hknown := h.places p
        rw [hplace] at hknown
        exact hknown.2.1
      exact h.load hplace
    · exact h
  | save p saves =>
    obtain ⟨rfl, hordered⟩ := hordered
    simp only [step]
    split
    · rename_i e u status authority state hplace
      obtain rfl : u = user := by
        have hknown := h.places p
        rw [hplace] at hknown
        exact hknown.2.1
      rw [hplace] at hordered
      exact h.save hfeed hrows hplace hordered
    · exact h
  | mark p =>
    simp only [step]
    split
    · rename_i e status hplace
      exact h.mark hrows hplace
    · exact h
  | raise p => exact h.goto trivial

lemma follows_run (hfeed : Feed site user events) {now : Time} {states : ℕ → Option UserSubscriptionState}
    {as : List Action} (htimely : StepsMeet (step site) (Timely site events) (init now states) as)
    (hordered : StepsMeet (step site) (Ordered site) (init now states) as) :
    Rows site (run (step site) (init now states) as) ∧
      Follows site user events (run (step site) (init now states) as) := by
  induction as using List.reverseRecOn with
  | nil => exact ⟨rows_init now states, follows_init now states⟩
  | append_singleton as a ih =>
    obtain ⟨htimely, hlast, -⟩ := stepsMeet_append.mp htimely
    obtain ⟨hordered, hlast', -⟩ := stepsMeet_append.mp hordered
    obtain ⟨hrows, h⟩ := ih htimely hordered
    rw [run_concat]
    exact ⟨rows_step _ a hrows, follows_step hfeed hrows h hlast hlast'⟩

/-! ### What follows -/

lemma states_of_overtaken (h : Follows site user events s) (hordered : Ordered site s a)
    (ha : a.handler = some p) (he : (s.handlers p).event? = some e) (hovertaken : Overtaken site s e) :
    (step site s a).states = s.states := by
  obtain ⟨b, hb, hlt⟩ := hovertaken
  cases a with
  | tick t => cases ha
  | raise q => rfl
  | deliver q d | mark q =>
    simp only [step]
    split <;> rfl
  | verify q | resolve q =>
    simp only [step]
    split
    · split <;> rfl
    · rfl
  | record q =>
    simp only [step]
    split
    · split
      · rfl
      · split <;> rfl
    · rfl
  | check q =>
    simp only [step]
    split
    · unfold State.checkOrdering
      dsimp only
      (repeat' split) <;> rfl
    · rfl
  | load q =>
    simp only [step]
    split
    · rename_i e' u status authority hplace
      obtain rfl : u = user := by
        have hknown := h.places q
        rw [hplace] at hknown
        exact hknown.2.1
      obtain ⟨state, hstate⟩ := h.state_of_applied hb
      exact load_states hstate
    · rfl
  | save q saves =>
    obtain rfl : q = p := Option.some.inj ha
    obtain ⟨rfl, hordered⟩ := hordered
    simp only [step]
    split
    · rename_i e' u status authority state hplace
      obtain rfl : u = user := by
        have hknown := h.places q
        rw [hplace] at hknown
        exact hknown.2.1
      rw [hplace] at he hordered
      obtain rfl : e' = e := Option.some.inj he
      -- the last change is not before the creation of the newer event
      obtain ⟨authority, hauthority, hle⟩ := h.authority b hb
      exact absurd ⟨authority, hauthority, hlt.trans_le hle⟩ hordered
    · rfl

lemma eq_or_rel_getLast {α : Type*} {R : α → α → Prop} {l : List α} (h : l.Pairwise R) {x last : α}
    (hx : x ∈ l) (hlast : l.getLast? = some last) : x = last ∨ R x last := by
  obtain ⟨front, rfl⟩ := List.getLast?_eq_some_iff.mp hlast
  rcases List.mem_append.mp hx with hx | hx
  · exact .inr ((List.pairwise_append.mp h).2.2 x hx last (List.mem_singleton_self _))
  · exact .inl (List.mem_singleton.mp hx)

lemma Follows.latest (hkeys : DistinctKeys site events) (hrows : Rows site s)
    (h : Follows site user events s) (he : e ∈ events)
    (hmax : ∀ e' ∈ events, e'.createdAt site ≤ e.createdAt site) (hhandled : Handled site s e) :
    ∃ state, s.states user = some state ∧ e.status site = some state.planStatus := by
  obtain ⟨row, hrow, hkey, hstatus⟩ := hhandled
  have hevent : row.event = e :=
    hkeys.eq_of_key (h.known row hrow) he (by rw [← hrows.key row hrow, hkey])
  have hmem : row.idempotencyKey ∈ s.appliedKeys site := by
    cases hrow' : row.processingStatus with
    | verified => exact absurd hrow' hstatus
    | processed => exact hrows.processed row hrow hrow'
    | failed => exact absurd hrow' (h.marks row hrow).1
    | rejected =>
      -- nothing is newer than the latest event
      obtain ⟨b, hb, hlt⟩ := (h.marks row hrow).2 hrow'
      rw [hevent] at hlt
      exact absurd (hmax b.1 (h.applied b hb).1) (not_le.mpr hlt)
  obtain ⟨b, hb, hbkey⟩ := List.mem_map.mp hmem
  have hbe : b.1 = e := hkeys.eq_of_key (h.applied b hb).1 he (by rw [hbkey, hkey])
  obtain ⟨last, hlast⟩ := Option.isSome_iff_exists.mp (List.getLast?_isSome.mpr (List.ne_nil_of_mem hb))
  have hsame : b = last := by
    refine (eq_or_rel_getLast h.sorted hb hlast).resolve_right fun hlt => ?_
    rw [hbe] at hlt
    exact absurd (hmax last.1 (h.applied last (List.mem_of_getLast? hlast)).1) (not_le.mpr hlt)
  obtain ⟨state, hstate, hplan⟩ := h.status last hlast
  exact ⟨state, hstate, by rw [← hbe, hsame]; exact hplan⟩

end

/-- **The subscription follows the latest event of the provider**, in every run in which an event that is
newer than those saved has been created after the last save, and nothing is saved that would not pass the
comparison any more. -/
theorem follows_latest (site : Site) (user : ℕ) (events : List Event) (hfeed : Feed site user events)
    (hkeys : DistinctKeys site events) (now : Time) (states : ℕ → Option UserSubscriptionState)
    (as : List Action) (htimely : StepsMeet (step site) (Timely site events) (init now states) as)
    (h : StepsMeet (step site) (Ordered site) (init now states) as) :
    FollowsLatest site user events (init now states) as := by
  refine ⟨?_, ?_⟩
  · rintro pre ⟨post, rfl⟩ hhandled e he hmax
    obtain ⟨hrows, hfollows⟩ := follows_run hfeed (stepsMeet_append.mp htimely).1 (stepsMeet_append.mp h).1
    exact hfollows.latest hkeys hrows he hmax (hhandled e he)
  · rintro pre a post rfl p e ha he hovertaken
    obtain ⟨-, hfollows⟩ := follows_run hfeed (stepsMeet_append.mp htimely).1 (stepsMeet_append.mp h).1
    rw [run_concat]
    exact states_of_overtaken hfollows (stepsMeet_append.mp h).2.1 ha he hovertaken

/-! ### Two events of one minute -/

/-- The subscription of the user is cancelled, two seconds after the payment. -/
def cancelBody : String :=
  "\x7b\"id\":\"evt_2\",\"user_id\":7,\"created\":12,\"status\":\"cancelled\"\x7d"

def paid : Event := ⟨"stripe", samplePayload⟩

def cancelled : Event :=
  ⟨"stripe", [("id", .str "evt_2"), ("user_id", .int 7), ("created", .int 12), ("status", .str "cancelled")]⟩

/-- The library on the two bodies. -/
def feedSite : Site :=
  { sampleSite with
    loads := fun body => if body = cancelBody then some cancelled.payload else sampleSite.loads body
    sha256 := fun raw =>
      if raw = "stripe:evt_2" then "986755cb0f69480283bf392fac37bb4db7da274031b53e9b0a5e5dbf50b529cb"
      else sampleSite.sha256 raw
    hmac := fun secret body =>
      if secret = "whsec_test" ∧ body = cancelBody then
        "0fe2f151519cefab8659e06430b8e2aaecf3e710ef1845acad00cbd343daceaf"
      else sampleSite.hmac secret body }

def cancelDelivery : Delivery where
  providerName := "stripe"
  body := cancelBody
  webhookSignature := "0fe2f151519cefab8659e06430b8e2aaecf3e710ef1845acad00cbd343daceaf"

def twoDeliveries (first second : Time) : List Action :=
  ([.tick first, .deliver 1 sampleDelivery, .verify 1] : List Action) ++ handling 1 ++
    ([.tick second, .deliver 2 cancelDelivery, .verify 2] : List Action) ++ handling 2

lemma feed_two : Feed feedSite 7 [paid, cancelled] where
  user := by decide +kernel
  status := by decide +kernel
  aware := by decide +kernel
  distinct := by decide +kernel

lemma received_paid : received feedSite sampleDelivery = some paid := rfl

lemma received_cancelled : received feedSite cancelDelivery = some cancelled := rfl

/-- The deliveries come after the events have been created. -/
lemma timely_two {first second : Time} (hfirst : (10 : Time) ≤ first) (hsecond : (12 : Time) ≤ second) :
    StepsMeet (step feedSite) (Timely feedSite [paid, cancelled]) (init 0 fun _ => none)
      (twoDeliveries first second) := by
  have hnow : ∀ (s : State) (a : Action), s.now ≤ (step feedSite s a).now := by
    intro s a
    cases a with
    | tick t => exact le_max_left _ _
    | check p =>
      simp only [step]
      split
      · unfold State.checkOrdering
        dsimp only
        (repeat' split) <;> exact le_rfl
      · exact le_rfl
    | deliver p d | load p | mark p | raise p => simp only [step]; (repeat' split) <;> exact le_rfl
    | verify p | record p | resolve p | save p saves => simp only [step]; (repeat' split) <;> exact le_rfl
  simp only [twoDeliveries, handling, List.cons_append, List.nil_append, StepsMeet, Timely, true_and, and_true]
  refine ⟨fun e he => ?_, fun e he => ?_⟩
  · obtain rfl : paid = e := Option.some.inj (received_paid.symm.trans he)
    exact ⟨by simp, hfirst.trans (le_max_right _ _)⟩
  · obtain rfl : cancelled = e := Option.some.inj (received_cancelled.symm.trans he)
    exact ⟨by simp, hsecond.trans (le_max_right _ _)⟩

theorem follows_latest_twoDeliveries :
    FollowsLatest feedSite 7 [paid, cancelled] (init 0 fun _ => none) (twoDeliveries 11 13) :=
  follows_latest feedSite 7 [paid, cancelled] feed_two (by decide +kernel) 0 (fun _ => none)
    (twoDeliveries 11 13) (timely_two (by decide +kernel) (by decide +kernel)) (by decide +kernel)

lemma twoDeliveries_late :
    let s := run (step feedSite) (init 0 fun _ => none) (twoDeliveries 15 16)
    (∀ e ∈ [paid, cancelled], Handled feedSite s e) ∧
      (s.states 7).map (·.planStatus) = some .active := by
  refine ⟨?_, ?_⟩ <;> decide +kernel

/-- The cancellation is then rejected as stale, and the subscription stays active. -/
theorem not_follows_latest :
    ¬ ∀ (site : Site) (user : ℕ) (events : List Event), Feed site user events → DistinctKeys site events →
      ∀ (now : Time) (states : ℕ → Option UserSubscriptionState) (as : List Action),
        StepsMeet (step site) (Timely site events) (init now states) as →
        FollowsLatest site user events (init now states) as := by
  intro h
  have hfollows := h feedSite 7 [paid, cancelled] feed_two (by decide +kernel) 0 (fun _ => none)
    (twoDeliveries 15 16) (timely_two (by decide +kernel) (by decide +kernel))
  obtain ⟨hhandled, hactive⟩ := twoDeliveries_late
  obtain ⟨state, hstate, hplan⟩ := hfollows.latest _ (List.prefix_refl _) hhandled cancelled (by simp)
    (by decide +kernel)
  rw [hstate, Option.map_some] at hactive
  rw [Option.some.inj hactive] at hplan
  have hstatus : cancelled.status feedSite = some .cancelled := by decide +kernel
  rw [hstatus] at hplan
  cases hplan

end PaymentWebhooks
end GuvFX
