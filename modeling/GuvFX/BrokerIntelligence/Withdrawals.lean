/-
# One withdrawal, and its history

The correlation is called in any number and order, and events, deliveries and revisions of categories arrive
in between.  What a withdrawal has come to is not taken back.  References of different accounts are told apart
if an account is of one owner, and an event without an account comes only where its owner has one withdrawal
at most with its reference.
-/
import GuvFX.BrokerIntelligence.Correlation
import GuvFX.Lib.Runs

namespace GuvFX
namespace BrokerIntelligence

open Runs

/-! ### The history of one withdrawal -/

def SetOnce {α : Type*} (x x' : Option α) : Prop := ∀ a, x = some a → x' = some a

structure Later (w w' : Withdrawal) : Prop where
  rank : statusRank w.status ≤ statusRank w'.status
  terminal : isTerminal w.status = true → w'.status = w.status
  amount : SetOnce w.amount w'.amount
  currency : w.currency ≠ "" → w'.currency = w.currency
  requested : SetOnce w.requestedAt w'.requestedAt
  confirmationRequired : SetOnce w.confirmationRequiredAt w'.confirmationRequiredAt
  confirmed : SetOnce w.confirmedAt w'.confirmedAt
  processing : SetOnce w.processingStartedAt w'.processingStartedAt
  completed : SetOnce w.completedAt w'.completedAt
  method : SetOnce w.correlationMethod w'.correlationMethod

def CompletedOnly (w : Withdrawal) : Prop := w.completedAt.isSome = true → w.status = .completed

section

variable {α : Type*} {x x' : Option α} {w w' : Withdrawal}

lemma SetOnce.refl (x : Option α) : SetOnce x x := fun _ h => h

lemma SetOnce.trans {x₁ : Option α} (h₁ : SetOnce x x₁) (h₂ : SetOnce x₁ x') : SetOnce x x' :=
  fun a h => h₂ a (h₁ a h)

lemma setOnce_getD (x : Option α) (a : α) : SetOnce x (some (x.getD a)) := by
  rintro b rfl
  rfl

lemma setOnce_or (x y : Option α) : SetOnce x (x.or y) := by
  rintro b rfl
  rfl

lemma Later.refl (w : Withdrawal) : Later w w :=
  ⟨le_rfl, fun _ => rfl, .refl _, fun _ => rfl, .refl _, .refl _, .refl _, .refl _, .refl _, .refl _⟩

lemma Later.trans {w₁ : Withdrawal} (h₁ : Later w w₁) (h₂ : Later w₁ w') : Later w w' where
  rank := h₁.rank.trans h₂.rank
  terminal h := by
    have hsame := h₁.terminal h
    exact (h₂.terminal (by rw [hsame]; exact h)).trans hsame
  amount := h₁.amount.trans h₂.amount
  currency h := by
    have hsame := h₁.currency h
    exact (h₂.currency (by rw [hsame]; exact h)).trans hsame
  requested := h₁.requested.trans h₂.requested
  confirmationRequired := h₁.confirmationRequired.trans h₂.confirmationRequired
  confirmed := h₁.confirmed.trans h₂.confirmed
  processing := h₁.processing.trans h₂.processing
  completed := h₁.completed.trans h₂.completed
  method := h₁.method.trans h₂.method

lemma statusRank_le_of_isTerminal {a b : WithdrawalStatus} (h : isTerminal a = true) :
    statusRank b ≤ statusRank a := by
  cases a <;> simp [isTerminal] at h <;> cases b <;> decide

/-! ### The parts of an advance -/

variable {event : BrokerEvent} {target : WithdrawalStatus} {pk : ℕ} {t : ℤ} {stage : Option Stage}

lemma later_advanceStatus : Later w (w.advanceStatus target t) := by
  unfold Withdrawal.advanceStatus
  split_ifs with hrank
  · refine ⟨hrank.le, fun h => ?_, .refl _, fun _ => rfl, .refl _, .refl _, .refl _, .refl _, .refl _, .refl _⟩
    exact absurd (statusRank_le_of_isTerminal h) (not_le.mpr hrank)
  · exact .refl w

lemma later_fillAmount : Later w (w.fillAmount event) where
  rank := le_rfl
  terminal _ := rfl
  amount := setOnce_or _ _
  currency h := if_neg h
  requested := .refl _
  confirmationRequired := .refl _
  confirmed := .refl _
  processing := .refl _
  completed := .refl _
  method := .refl _

lemma later_stampRequest : Later w (w.stampRequest pk target t) := by
  unfold Withdrawal.stampRequest
  split_ifs
  · exact .refl w
  · exact ⟨le_rfl, fun _ => rfl, .refl _, fun _ => rfl, setOnce_getD _ _, .refl _, .refl _, .refl _, .refl _,
      .refl _⟩

lemma later_stampStage : Later w (w.stampStage stage t) := by
  match stage with
  | none => exact .refl w
  | some .confirmationRequired =>
    exact ⟨le_rfl, fun _ => rfl, .refl _, fun _ => rfl, .refl _, setOnce_getD _ _, .refl _, .refl _, .refl _,
      .refl _⟩
  | some .confirmed =>
    exact ⟨le_rfl, fun _ => rfl, .refl _, fun _ => rfl, .refl _, .refl _, setOnce_getD _ _, .refl _, .refl _,
      .refl _⟩
  | some .processing =>
    exact ⟨le_rfl, fun _ => rfl, .refl _, fun _ => rfl, .refl _, .refl _, .refl _, setOnce_getD _ _, .refl _,
      .refl _⟩

lemma later_stampCompletion : Later w (w.stampCompletion pk target t) := by
  unfold Withdrawal.stampCompletion
  split_ifs
  · exact ⟨le_rfl, fun _ => rfl, .refl _, fun _ => rfl, .refl _, .refl _, .refl _, .refl _, setOnce_getD _ _,
      .refl _⟩
  · exact .refl w

lemma later_recordMethod {method : CorrelationMethod} : Later w (w.recordMethod method) :=
  ⟨le_rfl, fun _ => rfl, .refl _, fun _ => rfl, .refl _, .refl _, .refl _, .refl _, .refl _, setOnce_getD _ _⟩

lemma later_applyEvent {method : CorrelationMethod} : Later w (applyEvent pk event target method w) :=
  ((((later_advanceStatus.trans later_fillAmount).trans later_stampRequest).trans
    later_stampStage).trans later_stampCompletion).trans later_recordMethod

/-! ### The time of completion -/

lemma completedAt_stampStage : (w.stampStage stage t).completedAt = w.completedAt := by
  unfold Withdrawal.stampStage
  split <;> rfl

lemma status_stampStage : (w.stampStage stage t).status = w.status := by
  unfold Withdrawal.stampStage
  split <;> rfl

lemma CompletedOnly.applyEvent {method : CorrelationMethod} (h : CompletedOnly w) :
    CompletedOnly (applyEvent pk event target method w) := by
  -- up to the stamp of the completion nothing but the status can change
  have hbefore : ∀ w₁ : Withdrawal, w₁.completedAt = w.completedAt → Later w w₁ → CompletedOnly w₁ := by
    intro w₁ hsame hlater hset
    have hstatus := h (hsame ▸ hset)
    exact (hlater.terminal (by rw [hstatus]; rfl)).trans hstatus
  have hlater : Later w ((((w.advanceStatus target event.eventTime).fillAmount event).stampRequest pk target
      event.eventTime).stampStage (stageAnchor event.eventType) event.eventTime) :=
    ((later_advanceStatus.trans later_fillAmount).trans later_stampRequest).trans later_stampStage
  have hsame : ((((w.advanceStatus target event.eventTime).fillAmount event).stampRequest pk target
      event.eventTime).stampStage (stageAnchor event.eventType) event.eventTime).completedAt =
        w.completedAt := by
    rw [completedAt_stampStage]
    unfold Withdrawal.stampRequest Withdrawal.fillAmount Withdrawal.advanceStatus
    split_ifs <;> rfl
  have hstaged := hbefore _ hsame hlater
  intro hset
  simp only [BrokerIntelligence.applyEvent, Withdrawal.recordMethod] at hset ⊢
  unfold Withdrawal.stampCompletion at hset ⊢
  split_ifs at hset ⊢ with hcompleted
  · exact hcompleted.2
  · exact hstaged hset

lemma completedOnly_createByReference {now : ℤ} : CompletedOnly (createByReference pk event target now) := by
  intro hset
  simp only [createByReference, completedAt_stampStage, status_stampStage] at hset ⊢
  split_ifs at hset with htarget
  · exact htarget
  · cases hset

lemma completedOnly_createHeuristic {now : ℤ} : CompletedOnly (createHeuristic pk event target now) := by
  intro hset
  simp [createHeuristic, completedAt_stampStage] at hset

end

/-! ### What a correlation does -/

section

variable {withdrawals : Table Withdrawal} {event : BrokerEvent} {w : ℕ} {row : Withdrawal}

lemma of_firstWithdrawal {p : Withdrawal → Bool} (h : firstWithdrawal withdrawals p = some (w, row)) :
    withdrawals.get w = some row ∧ p row = true := by
  have hmem := (List.mem_insertionSort _).mp (List.mem_of_mem_head? h)
  exact Table.mem_filter.mp hmem

lemma firstWithdrawal_eq_none {p : Withdrawal → Bool} (h : firstWithdrawal withdrawals p = none)
    (hrow : withdrawals.get w = some row) : p row = false := by
  have hnil := List.head?_eq_none_iff.mp h
  have hlength := congrArg List.length hnil
  rw [List.length_insertionSort, List.length_nil, List.length_eq_zero_iff] at hlength
  by_contra hp
  have hmem : (w, row) ∈ withdrawals.filter fun _ w => p w :=
    Table.mem_filter.mpr ⟨hrow, Bool.eq_true_of_not_eq_false hp⟩
  simp [hlength] at hmem

/-- The four ways in which a reference finds a withdrawal. -/
inductive Found (event : BrokerEvent) (withdrawals : Table Withdrawal) (row : Withdrawal) : Prop
  | strict (account : ℕ) (hevent : event.tradingAccount = some account)
      (haccount : row.tradingAccount = some account)
  | unresolved (account owner : ℕ) (hevent : event.tradingAccount = some account)
      (hnone : ∀ w row, withdrawals.get w = some row → row.tradingAccount = some account →
        row.brokerReferenceId ≠ event.brokerReferenceId)
      (howner : event.owner = some owner) (hrow : row.owner = some owner)
      (haccount : row.tradingAccount = none)
  | unbound (owner : ℕ) (hevent : event.tradingAccount = none) (howner : event.owner = some owner)
      (hrow : row.owner = some owner) (haccount : row.tradingAccount = none)
  | bridged (owner : ℕ) (hevent : event.tradingAccount = none) (howner : event.owner = some owner)
      (hnone : ∀ w row, withdrawals.get w = some row → row.owner = some owner →
        row.tradingAccount = none → row.brokerReferenceId ≠ event.brokerReferenceId)
      (hrow : row.owner = some owner)

lemma of_findByReference (h : findByReference event withdrawals = some (w, row)) :
    withdrawals.get w = some row ∧ row.brokerReferenceId = event.brokerReferenceId ∧
      Found event withdrawals row := by
  unfold findByReference at h
  split at h
  next account haccount =>
    rcases Option.or_eq_some_iff.mp h with hstrict | ⟨hnone, hunbound⟩
    · obtain ⟨hget, hp⟩ := of_firstWithdrawal hstrict
      simp only [Bool.and_eq_true, decide_eq_true_eq] at hp
      exact ⟨hget, hp.2, .strict account haccount hp.1⟩
    · obtain ⟨user, howner, hfirst⟩ := Option.bind_eq_some_iff.mp hunbound
      obtain ⟨hget, hp⟩ := of_firstWithdrawal hfirst
      simp only [Bool.and_eq_true, decide_eq_true_eq, Option.isNone_iff_eq_none] at hp
      refine ⟨hget, hp.2, .unresolved account user haccount (fun w row hrow hbound href => ?_) howner hp.1.1
        hp.1.2⟩
      simpa [hbound, href] using firstWithdrawal_eq_none hnone hrow
  next owner haccount howner =>
    rcases Option.or_eq_some_iff.mp h with hunbound | ⟨hnone, hbridge⟩
    · obtain ⟨hget, hp⟩ := of_firstWithdrawal hunbound
      simp only [Bool.and_eq_true, decide_eq_true_eq, Option.isNone_iff_eq_none] at hp
      exact ⟨hget, hp.2, .unbound owner haccount howner hp.1.1 hp.1.2⟩
    · obtain ⟨hget, hp⟩ := of_firstWithdrawal hbridge
      simp only [Bool.and_eq_true, decide_eq_true_eq] at hp
      refine ⟨hget, hp.2, .bridged owner haccount howner (fun w row hrow hown hbound href => ?_) hp.1⟩
      simpa [hown, hbound, href] using firstWithdrawal_eq_none hnone hrow
  · cases h

lemma findByReference_eq_none (h : findByReference event withdrawals = none)
    (hrow : withdrawals.get w = some row) (href : row.brokerReferenceId = event.brokerReferenceId) :
    (∀ account, event.tradingAccount = some account → row.tradingAccount ≠ some account) ∧
    (∀ owner, event.owner = some owner → row.owner = some owner →
      row.tradingAccount ≠ none ∧ event.tradingAccount ≠ none) := by
  unfold findByReference at h
  split at h
  next account haccount =>
    obtain ⟨hstrict, hunbound⟩ := Option.or_eq_none_iff.mp h
    constructor
    · rintro account' haccount' hbound
      obtain rfl := Option.some.inj (haccount.symm.trans haccount')
      simpa [hbound, href] using firstWithdrawal_eq_none hstrict hrow
    · rintro user huser hown
      refine ⟨fun hbound => ?_, by simp [haccount]⟩
      rw [huser, Option.bind_some] at hunbound
      simpa [hown, hbound, href] using firstWithdrawal_eq_none hunbound hrow
  next owner haccount howner =>
    obtain ⟨-, hbridge⟩ := Option.or_eq_none_iff.mp h
    constructor
    · rintro account' haccount'
      simp [haccount] at haccount'
    · rintro user huser hown
      obtain rfl := Option.some.inj (howner.symm.trans huser)
      have hnone := firstWithdrawal_eq_none hbridge hrow
      simp [hown, href] at hnone
  next haccount howner =>
    constructor
    · rintro account' haccount'
      simp [haccount] at haccount'
    · rintro user huser
      simp [howner] at huser

lemma of_mem_heuristicCandidates (h : (w, row) ∈ heuristicCandidates event withdrawals) :
    withdrawals.get w = some row ∧ row.brokerReferenceId = "" ∧ row.amount = event.amount ∧
      row.currency = event.currency ∧ row.tradingAccount = event.tradingAccount ∧
      (event.tradingAccount = none → row.owner = event.owner) := by
  unfold heuristicCandidates at h
  obtain ⟨hget, hp⟩ := Table.mem_filter.mp h
  simp only [Bool.and_eq_true, decide_eq_true_eq] at hp
  obtain ⟨⟨⟨⟨⟨hkey, href⟩, hamount⟩, hcurrency⟩, -⟩, -⟩ := hp
  refine ⟨hget, href, hamount, hcurrency, ?_⟩
  split at hkey
  next account haccount =>
    exact ⟨(of_decide_eq_true hkey).trans haccount.symm, fun hnone => by simp [haccount] at hnone⟩
  next haccount =>
    simp only [Bool.and_eq_true, decide_eq_true_eq, Option.isNone_iff_eq_none] at hkey
    exact ⟨hkey.2.trans haccount.symm, fun _ => hkey.1⟩

end

inductive Does (pk : ℕ) (event : BrokerEvent) (s : State) : Effect → Prop
  | leave (outcome : Outcome) : Does pk event s (.leave outcome)
  | ambiguous (hopen : event.correlationStatus ≠ .correlated) : Does pk event s .ambiguous
  | join (w : ℕ) (hopen : event.correlationStatus ≠ .correlated) (href : event.brokerReferenceId = "") :
      Does pk event s (.join w)
  | found (w : ℕ) (row : Withdrawal) (target : WithdrawalStatus) (method : CorrelationMethod)
      (outcome : Outcome) (hopen : event.correlationStatus ≠ .correlated)
      (href : event.brokerReferenceId ≠ "") (hfind : findByReference event s.withdrawals = some (w, row)) :
      Does pk event s (.save w (applyEvent pk event target method row) outcome)
  /-- A withdrawal without a reference takes over that of the event. -/
  | adopted (w : ℕ) (row : Withdrawal) (target : WithdrawalStatus)
      (hopen : event.correlationStatus ≠ .correlated) (href : event.brokerReferenceId ≠ "")
      (hfind : findByReference event s.withdrawals = none)
      (hmem : (w, row) ∈ heuristicCandidates event s.withdrawals) :
      Does pk event s (.save w (applyEvent pk event target .referenceId
        { row with brokerReferenceId := event.brokerReferenceId }) .reference)
  /-- A withdrawal without a reference is advanced. -/
  | matched (w : ℕ) (row : Withdrawal) (target : WithdrawalStatus)
      (hopen : event.correlationStatus ≠ .correlated) (href : event.brokerReferenceId = "")
      (hadvance : event.eventType ≠ .withdrawalRequested)
      (hmem : (w, row) ∈ heuristicCandidates event s.withdrawals) :
      Does pk event s (.save w (applyEvent pk event target .heuristic row) .heuristic)
  | createByReference (target : WithdrawalStatus) (now : ℤ)
      (hopen : event.correlationStatus ≠ .correlated) (href : event.brokerReferenceId ≠ "")
      (hfind : findByReference event s.withdrawals = none)
      (hexternal : event.effectiveTransactionCategory = .externalWithdrawal) :
      Does pk event s (.create (createByReference pk event target now))
  | createHeuristic (target : WithdrawalStatus) (now : ℤ)
      (hopen : event.correlationStatus ≠ .correlated) (href : event.brokerReferenceId = "")
      (htarget : isTerminal target = false)
      (hexternal : event.effectiveTransactionCategory = .externalWithdrawal) :
      Does pk event s (.create (createHeuristic pk event target now))

section

variable {pk : ℕ} {event : BrokerEvent} {s : State}

lemma advanceOnly_does (target : WithdrawalStatus) (outcome : Outcome) :
    Does pk event s (advanceOnly pk event target outcome s) := by
  unfold advanceOnly
  split_ifs with href hnone hdone
  · exact .leave _
  · exact .leave _
  · exact .leave _
  split
  · exact .leave _
  next w row hfind => exact .found w row target _ outcome hdone href hfind

lemma correlateByReference_does (target : WithdrawalStatus) (now : ℤ)
    (hopen : event.correlationStatus ≠ .correlated) (href : event.brokerReferenceId ≠ "")
    (hexternal : event.effectiveTransactionCategory = .externalWithdrawal) :
    Does pk event s (correlateByReference pk event target now s.withdrawals) := by
  simp only [correlateByReference]
  split
  next w row hfind => exact .found w row target _ _ hopen href hfind
  next hfind =>
    split
    next w row hcandidates =>
      refine .adopted w row target hopen href hfind ?_
      split_ifs at hcandidates
      rw [hcandidates]
      exact List.mem_cons_self
    · exact .createByReference target now hopen href hfind hexternal

lemma correlateByHeuristic_does {target : WithdrawalStatus} (now : ℤ)
    (htarget : statusForEvent event.eventType = some target)
    (hopen : event.correlationStatus ≠ .correlated) (href : event.brokerReferenceId = "")
    (hexternal : event.effectiveTransactionCategory = .externalWithdrawal) :
    Does pk event s (correlateByHeuristic pk event target now s.observations s.withdrawals) := by
  unfold correlateByHeuristic
  split
  next hopening =>
    split
    next w _ => exact .join w hopen href
    · rw [hopening] at htarget
      cases htarget
      exact .createHeuristic _ now hopen href rfl hexternal
  next hopening =>
    split
    · exact .leave _
    split
    next w row hcandidates =>
      exact .matched w row target hopen href hopening (hcandidates ▸ List.mem_cons_self)
    · exact .ambiguous hopen
    · split
      next hfallback =>
        have hnot : isTerminal target = false := by
          rcases hfallback with hfirst | hfirst <;> rw [hfirst] at htarget <;> cases htarget <;> rfl
        exact .createHeuristic target now hopen href hnot hexternal
      · exact .leave _

/-- Every correlation is one of these. -/
lemma effect_does (pass : Pass) (now : ℤ) : Does pk event s (pass.effect now pk event s) := by
  cases pass with
  | external =>
    simp only [Pass.effect, correlateEvent]
    split
    · exact .leave _
    next hexternal =>
      split
      · exact .leave _
      split
      · exact .leave _
      next target htarget =>
        split
        · exact .leave _
        next hdone =>
          split
          next href => exact correlateByReference_does target now hdone href (not_not.mp hexternal)
          next href =>
            exact correlateByHeuristic_does now htarget hdone (not_not.mp href) (not_not.mp hexternal)
  | neutralAdvance =>
    simp only [Pass.effect, correlateNeutralAdvanceEvent]
    split
    · exact .leave _
    · exact advanceOnly_does _ _
  | completion =>
    simp only [Pass.effect, correlateCompletionEvent]
    split_ifs
    · exact .leave _
    · exact advanceOnly_does _ _

end

/-! ### Inductions over a run of the correlation -/

section

variable {P : State → Prop}

lemma drain_invariant (hP : ∀ pass now pk s, P s → P (correlate pass now pk s)) (pass : Pass)
    (now : ℕ → ℤ) (ids : List ℕ) {s : State} (hs : P s) : P (drain pass now ids s) := by
  induction ids generalizing s with
  | nil => exact hs
  | cons pk ids ih => exact ih (hP pass (now pk) pk s hs)

lemma runCorrelation_invariant (hP : ∀ pass now pk s, P s → P (correlate pass now pk s))
    (limit : Option ℕ) (now : ℕ → ℤ) {s : State} (hs : P s) : P (runCorrelation limit now s) := by
  refine drain_invariant hP _ now _ (drain_invariant hP _ now _ (drain_invariant hP _ now _ hs))

end

/-! ### Withdrawals are created once, and nothing is taken back -/

/-- Every withdrawal is found again, at a later point of its history. -/
def WithdrawalsLater (s s' : State) : Prop :=
  ∀ w row, s.withdrawals.get w = some row → ∃ row', s'.withdrawals.get w = some row' ∧ Later row row'

/-- Nothing but the status and the category of an event is changed, and a correlated one stays so. -/
def EventsKept (s s' : State) : Prop :=
  ∀ k event, s.events.get k = some event → ∃ event', s'.events.get k = some event' ∧
    event'.tradingAccount = event.tradingAccount ∧ event'.owner = event.owner ∧
    event'.brokerReferenceId = event.brokerReferenceId ∧
    (event.correlationStatus = .correlated → event'.correlationStatus = .correlated)

/-- The invariant of every run. -/
structure Inv (s : State) : Prop where
  completed : ∀ w row, s.withdrawals.get w = some row → CompletedOnly row
  created : ∀ w ∈ s.withdrawals.keys, ∃ r ∈ s.results, r.outcome = .created ∧ r.withdrawal = some w ∧
    r.category = .externalWithdrawal
  once : s.results.Pairwise fun r r' =>
    r.withdrawal.isSome = true → r'.withdrawal.isSome = true → r.event ≠ r'.event
  marked : ∀ r ∈ s.results, r.withdrawal.isSome = true →
    ∃ event, s.events.get r.event = some event ∧ event.correlationStatus = .correlated

instance : Std.Refl WithdrawalsLater := ⟨fun _ _ row h => ⟨row, h, .refl row⟩⟩

instance : IsTrans State WithdrawalsLater where
  trans _ _ _ h₁ h₂ := by
    intro w row hrow
    obtain ⟨row₁, hrow₁, hlater₁⟩ := h₁ w row hrow
    obtain ⟨row₂, hrow₂, hlater₂⟩ := h₂ w row₁ hrow₁
    exact ⟨row₂, hrow₂, hlater₁.trans hlater₂⟩

section

variable {pk : ℕ} {event : BrokerEvent} {s : State}

lemma withdrawalsLater_modify {w : ℕ} {old row : Withdrawal} {s' : State}
    (hs' : s'.withdrawals = s.withdrawals.modify w fun _ => row) (hold : s.withdrawals.get w = some old)
    (hlater : Later old row) : WithdrawalsLater s s' := by
  intro j found hfound
  rw [hs', Table.get_modify]
  split_ifs with hj
  · subst hj
    obtain rfl := Option.some.inj (hold.symm.trans hfound)
    exact ⟨row, by rw [hold]; rfl, hlater⟩
  · exact ⟨found, hfound, .refl found⟩

lemma Does.save {w : ℕ} {row : Withdrawal} {outcome : Outcome} (h : Does pk event s (.save w row outcome)) :
    ∃ old, s.withdrawals.get w = some old ∧ Later old row ∧ (CompletedOnly old → CompletedOnly row) := by
  cases h with
  | found _ old target method _ hopen href hfind =>
    exact ⟨old, (of_findByReference hfind).1, later_applyEvent, CompletedOnly.applyEvent⟩
  | adopted _ old target hopen href hfind hmem =>
    have hadopted : Later old { old with brokerReferenceId := event.brokerReferenceId } :=
      ⟨le_rfl, fun _ => rfl, .refl _, fun _ => rfl, .refl _, .refl _, .refl _, .refl _, .refl _, .refl _⟩
    exact ⟨old, (of_mem_heuristicCandidates hmem).1, hadopted.trans later_applyEvent,
      fun hcompleted => CompletedOnly.applyEvent hcompleted⟩
  | matched _ old target hopen href hadvance hmem =>
    exact ⟨old, (of_mem_heuristicCandidates hmem).1, later_applyEvent, CompletedOnly.applyEvent⟩

lemma withdrawalsLater_correlate (pass : Pass) (now : ℤ) (pk : ℕ) (s : State) :
    WithdrawalsLater s (correlate pass now pk s) := by
  unfold correlate
  split
  · exact refl_of _ _
  next event _ =>
    have hdoes : Does pk event s (pass.effect now pk event s) := effect_does pass now
    cases heffect : pass.effect now pk event s with
    | leave | ambiguous | join => exact fun _ row hrow => ⟨row, hrow, .refl row⟩
    | save w row outcome =>
      obtain ⟨old, hold, hlater, -⟩ := (heffect ▸ hdoes).save
      exact withdrawalsLater_modify rfl hold hlater
    | create row =>
      exact fun _ found hfound =>
        ⟨found, Table.get_insert_of_get (Table.fresh_not_mem _) hfound, .refl found⟩

lemma withdrawalsLater_step (s : State) (a : Action) : WithdrawalsLater s (step s a) := by
  cases a with
  | arrive | observe | revise => exact fun _ row hrow => ⟨row, hrow, .refl row⟩
  | correlate pass now pk => exact withdrawalsLater_correlate pass now pk s
  | run limit now =>
    refine runCorrelation_invariant (P := WithdrawalsLater s) (fun pass now pk s' hs' => ?_) limit now
      (refl_of _ _)
    exact trans_of _ hs' (withdrawalsLater_correlate pass now pk s')

lemma eventsKept_mark {status : CorrelationStatus} {s' : State}
    (hevents : s'.events = s.events.modify pk (BrokerEvent.mark status))
    (hstatus : status = .correlated ∨
      ∀ event, s.events.get pk = some event → event.correlationStatus ≠ .correlated) :
    EventsKept s s' := by
  intro k event hevent
  rw [hevents, Table.get_modify]
  split_ifs with hk
  · subst hk
    refine ⟨event.mark status, by rw [hevent]; rfl, rfl, rfl, rfl, fun hdone => ?_⟩
    rcases hstatus with rfl | hopen
    · rfl
    · exact absurd hdone (hopen event hevent)
  · exact ⟨event, hevent, rfl, rfl, rfl, id⟩

end

section

variable {s s' : State}

lemma Inv.quiet (h : Inv s) (hwithdrawals : s'.withdrawals = s.withdrawals)
    (hresults : s'.results = s.results) (hkept : EventsKept s s') : Inv s' where
  completed w row hrow := h.completed w row (hwithdrawals ▸ hrow)
  created w hw := by
    rw [hresults]
    exact h.created w (hwithdrawals ▸ hw)
  once := by
    rw [hresults]
    exact h.once
  marked r hr hsome := by
    obtain ⟨event, hevent, hdone⟩ := h.marked r (hresults ▸ hr) hsome
    obtain ⟨event', hevent', -, -, -, hdone'⟩ := hkept r.event event hevent
    exact ⟨event', hevent', hdone' hdone⟩

lemma Inv.record (h : Inv s) {r : CorrelationResult} (hresults : s'.results = s.results ++ [r])
    (hkept : EventsKept s s')
    (hopen : r.withdrawal.isSome = true → ∀ event, s.events.get r.event = some event →
      event.correlationStatus ≠ .correlated)
    (hdone : r.withdrawal.isSome = true → ∃ event', s'.events.get r.event = some event' ∧
      event'.correlationStatus = .correlated)
    (hcompleted : ∀ w row, s'.withdrawals.get w = some row → CompletedOnly row)
    (hcreated : ∀ w ∈ s'.withdrawals.keys, w ∈ s.withdrawals.keys ∨
      (r.outcome = .created ∧ r.withdrawal = some w ∧ r.category = .externalWithdrawal)) : Inv s' where
  completed := hcompleted
  created w hw := by
    rw [hresults]
    rcases hcreated w hw with hold | hnew
    · obtain ⟨r', hr', hcreated'⟩ := h.created w hold
      exact ⟨r', List.mem_append_left _ hr', hcreated'⟩
    · exact ⟨r, List.mem_append_right _ (List.mem_singleton_self r), hnew⟩
  once := by
    rw [hresults, List.pairwise_append]
    refine ⟨h.once, List.pairwise_singleton _ _, fun r' hr' r'' hr'' hsome' hsome heq => ?_⟩
    obtain rfl := List.mem_singleton.mp hr''
    obtain ⟨event, hevent, hcorrelated⟩ := h.marked r' hr' hsome'
    exact hopen hsome event (heq ▸ hevent) hcorrelated
  marked r' hr' hsome := by
    rw [hresults] at hr'
    rcases List.mem_append.mp hr' with hold | hnew
    · obtain ⟨event, hevent, hcorrelated⟩ := h.marked r' hold hsome
      obtain ⟨event', hevent', -, -, -, hstays⟩ := hkept r'.event event hevent
      exact ⟨event', hevent', hstays hcorrelated⟩
    · obtain rfl := List.mem_singleton.mp hnew
      exact hdone hsome

lemma Does.isOpen {pk : ℕ} {event : BrokerEvent} {effect : Effect} (h : Does pk event s effect) :
    (∃ outcome, effect = .leave outcome) ∨ event.correlationStatus ≠ .correlated := by
  cases h with
  | leave outcome => exact .inl ⟨outcome, rfl⟩
  | ambiguous hopen | join _ hopen | found _ _ _ _ _ hopen | adopted _ _ _ hopen | matched _ _ _ hopen
  | createByReference _ _ hopen | createHeuristic _ _ hopen => exact .inr hopen

lemma Does.create {pk : ℕ} {event : BrokerEvent} {row : Withdrawal} (h : Does pk event s (.create row)) :
    event.effectiveTransactionCategory = .externalWithdrawal ∧ CompletedOnly row := by
  cases h with
  | createByReference target now hopen href hfind hexternal =>
    exact ⟨hexternal, completedOnly_createByReference⟩
  | createHeuristic target now hopen href _ hexternal => exact ⟨hexternal, completedOnly_createHeuristic⟩

lemma get_mark {pk : ℕ} {event : BrokerEvent} (hget : s.events.get pk = some event)
    (status : CorrelationStatus) :
    (s.events.modify pk (BrokerEvent.mark status)).get pk = some (event.mark status) := by
  rw [Table.get_modify_self, hget]
  rfl

lemma inv_correlate (pass : Pass) (now : ℤ) (pk : ℕ) (h : Inv s) :
    Inv (correlate pass now pk s) ∧ EventsKept s (correlate pass now pk s) := by
  have hrefl : EventsKept s s := fun _ event hevent => ⟨event, hevent, rfl, rfl, rfl, id⟩
  unfold correlate
  split
  · exact ⟨h, hrefl⟩
  next event hget =>
    have hdoes : Does pk event s (pass.effect now pk event s) := effect_does pass now
    have hopen : ∀ found, s.events.get pk = some found → event.correlationStatus ≠ .correlated →
        found.correlationStatus ≠ .correlated := by
      rintro found hfound hopen
      obtain rfl := Option.some.inj (hget.symm.trans hfound)
      exact hopen
    cases heffect : pass.effect now pk event s with
    | leave outcome =>
      exact ⟨h.record rfl hrefl nofun nofun h.completed fun w hw => .inl hw, hrefl⟩
    | ambiguous =>
      have hnot := (heffect ▸ hdoes).isOpen.resolve_left (by simp)
      have hkept : EventsKept s (Effect.perform pk event s .ambiguous) :=
        eventsKept_mark rfl (.inr fun found hfound => hopen found hfound hnot)
      exact ⟨h.record rfl hkept nofun nofun h.completed fun w hw => .inl hw, hkept⟩
    | join w =>
      have hnot := (heffect ▸ hdoes).isOpen.resolve_left (by simp)
      have hkept : EventsKept s (Effect.perform pk event s (.join w)) := eventsKept_mark rfl (.inl rfl)
      exact ⟨h.record rfl hkept (fun _ found hfound => hopen found hfound hnot)
        (fun _ => ⟨_, get_mark hget _, rfl⟩) h.completed fun w hw => .inl hw, hkept⟩
    | save w row outcome =>
      have hnot := (heffect ▸ hdoes).isOpen.resolve_left (by simp)
      obtain ⟨old, hold, -, hcompleted⟩ := (heffect ▸ hdoes).save
      have hkept : EventsKept s (Effect.perform pk event s (.save w row outcome)) :=
        eventsKept_mark rfl (.inl rfl)
      refine ⟨h.record rfl hkept (fun _ found hfound => hopen found hfound hnot)
        (fun _ => ⟨_, get_mark hget _, rfl⟩) (fun j found hfound => ?_)
        fun j hj => .inl (by simpa [Effect.perform] using hj), hkept⟩
      rw [Effect.perform, Table.get_modify] at hfound
      split_ifs at hfound with hj
      · rw [hold, Option.map_some] at hfound
        obtain rfl := Option.some.inj hfound
        exact hcompleted (h.completed w old hold)
      · exact h.completed j found hfound
    | create row =>
      have hnot := (heffect ▸ hdoes).isOpen.resolve_left (by simp)
      obtain ⟨hexternal, hcompleted⟩ := (heffect ▸ hdoes).create
      have hfresh := Table.fresh_not_mem s.withdrawals
      have hkept : EventsKept s (Effect.perform pk event s (.create row)) := eventsKept_mark rfl (.inl rfl)
      refine ⟨h.record rfl hkept (fun _ found hfound => hopen found hfound hnot)
        (fun _ => ⟨_, get_mark hget _, rfl⟩) (fun j found hfound => ?_) (fun j hj => ?_), hkept⟩
      · rw [Effect.perform, Table.get_insert _ hfresh] at hfound
        split_ifs at hfound with hj
        · obtain rfl := Option.some.inj hfound
          exact hcompleted
        · exact h.completed j found hfound
      · obtain ⟨found, hfound⟩ := Table.get_of_mem_keys hj
        rw [Effect.perform, Table.get_insert _ hfresh] at hfound
        split_ifs at hfound with hjw
        · exact .inr ⟨rfl, by rw [hjw], hexternal⟩
        · exact .inl (Table.mem_keys_of_get hfound)

end

/-! ### References and accounts -/

def Withdrawal.key (w : Withdrawal) : Option ℕ × Option ℕ × String :=
  (w.tradingAccount, w.owner, w.brokerReferenceId)

section

variable {w : Withdrawal} {event : BrokerEvent} {target : WithdrawalStatus} {pk : ℕ} {t : ℤ}

@[simp] lemma key_advanceStatus : (w.advanceStatus target t).key = w.key := by
  unfold Withdrawal.advanceStatus
  split_ifs <;> rfl

@[simp] lemma key_fillAmount : (w.fillAmount event).key = w.key := rfl

@[simp] lemma key_stampRequest : (w.stampRequest pk target t).key = w.key := by
  unfold Withdrawal.stampRequest
  split_ifs <;> rfl

@[simp] lemma key_stampStage {stage : Option Stage} : (w.stampStage stage t).key = w.key := by
  unfold Withdrawal.stampStage
  split <;> rfl

@[simp] lemma key_stampCompletion : (w.stampCompletion pk target t).key = w.key := by
  unfold Withdrawal.stampCompletion
  split_ifs <;> rfl

@[simp] lemma key_recordMethod {method : CorrelationMethod} : (w.recordMethod method).key = w.key := rfl

/-- An advance does not change what a withdrawal is found by. -/
lemma key_applyEvent {method : CorrelationMethod} : (applyEvent pk event target method w).key = w.key := by
  simp [applyEvent]

lemma key_createByReference {now : ℤ} : (createByReference pk event target now).key =
    (event.tradingAccount, event.owner, event.brokerReferenceId) := by
  rw [createByReference, key_stampStage]
  rfl

lemma key_createHeuristic {now : ℤ} :
    (createHeuristic pk event target now).key = (event.tradingAccount, event.owner, "") := by
  rw [createHeuristic, key_stampStage]
  rfl

end

/-- Under a reference there is one withdrawal for each account, and one alone for an owner if it is
without an account. -/
structure Distinct (withdrawals : Table Withdrawal) : Prop where
  account : ∀ w w' row row' account, withdrawals.get w = some row → withdrawals.get w' = some row' →
    row.brokerReferenceId ≠ "" → row'.brokerReferenceId = row.brokerReferenceId →
    row.tradingAccount = some account → row'.tradingAccount = some account → w = w'
  owner : ∀ w w' row row' owner, withdrawals.get w = some row → withdrawals.get w' = some row' →
    row.brokerReferenceId ≠ "" → row'.brokerReferenceId = row.brokerReferenceId →
    row.tradingAccount = none → row.owner = some owner → row'.owner = some owner → w = w'

structure Placed (event : BrokerEvent) (row : Withdrawal) : Prop where
  reference : row.brokerReferenceId = event.brokerReferenceId
  owner : row.owner = event.owner
  account : event.tradingAccount = none ∨ row.tradingAccount = none ∨
    row.tradingAccount = event.tradingAccount

def OfOneAccount (owner : ℕ) (ref : String) (withdrawals : Table Withdrawal) : Prop :=
  ∀ w w' row row' account account', withdrawals.get w = some row → withdrawals.get w' = some row' →
    row.owner = some owner → row'.owner = some owner →
    row.brokerReferenceId = ref → row'.brokerReferenceId = ref →
    row.tradingAccount = some account → row'.tradingAccount = some account' → account = account'

/-- The events of one owner with one reference are projected into one withdrawal if they are without an
account, or with the same one; and all of them are, if their withdrawals are not of different accounts. -/
def OneForReference (s : State) : Prop :=
  ∀ r ∈ s.results, ∀ r' ∈ s.results, ∀ w w' event event' owner,
    r.withdrawal = some w → r'.withdrawal = some w' →
    s.events.get r.event = some event → s.events.get r'.event = some event' →
    event.owner = some owner → event'.owner = some owner →
    event.brokerReferenceId ≠ "" → event'.brokerReferenceId = event.brokerReferenceId →
    event'.tradingAccount = event.tradingAccount ∨
      OfOneAccount owner event.brokerReferenceId s.withdrawals → w = w'

/-- The first half of it, which a run preserves. -/
def OneForKey (s : State) : Prop :=
  ∀ r ∈ s.results, ∀ r' ∈ s.results, ∀ w w' event event' owner,
    r.withdrawal = some w → r'.withdrawal = some w' →
    s.events.get r.event = some event → s.events.get r'.event = some event' →
    event.owner = some owner → event'.owner = some owner →
    event.brokerReferenceId ≠ "" → event'.brokerReferenceId = event.brokerReferenceId →
    event'.tradingAccount = event.tradingAccount → w = w'

/-- The invariant of the runs in which the references of accounts are told apart. -/
structure Grouped (s : State) : Prop where
  distinct : Distinct s.withdrawals
  placed : ∀ r ∈ s.results, ∀ w event, r.withdrawal = some w → s.events.get r.event = some event →
    event.brokerReferenceId ≠ "" → ∃ row, s.withdrawals.get w = some row ∧ Placed event row
  one : OneForKey s

def accountOfOwner (event : BrokerEvent) (withdrawals : Table Withdrawal) : Bool :=
  event.tradingAccount.isNone || withdrawals.rows.all fun row =>
    row.2.tradingAccount ≠ event.tradingAccount || row.2.owner = event.owner ||
      (row.2.brokerReferenceId ≠ event.brokerReferenceId && row.2.brokerReferenceId ≠ "")

def oneReference (event : BrokerEvent) (withdrawals : Table Withdrawal) : Bool :=
  event.tradingAccount.isSome || event.owner.isNone ||
    (withdrawals.filter fun _ w =>
      w.owner = event.owner && w.brokerReferenceId = event.brokerReferenceId).length ≤ 1

def toldApart (s : State) (pk : ℕ) : Bool :=
  (s.events.get pk).all fun event =>
    event.correlationStatus = .correlated || event.brokerReferenceId = "" ||
      (accountOfOwner event s.withdrawals && oneReference event s.withdrawals)

section

variable {withdrawals withdrawals' : Table Withdrawal} {event : BrokerEvent} {w w' : ℕ}
  {row row' : Withdrawal} {owner : ℕ} {s : State}

lemma accountOfOwner_spec (h : accountOfOwner event withdrawals = true) {account : ℕ}
    (haccount : event.tradingAccount = some account) (hrow : withdrawals.get w = some row)
    (hbound : row.tradingAccount = some account)
    (href : row.brokerReferenceId = event.brokerReferenceId ∨ row.brokerReferenceId = "") :
    row.owner = event.owner := by
  simp only [accountOfOwner, haccount, Option.isNone_some, Bool.false_or, List.all_eq_true] at h
  have hone := h (w, row) (Table.mem_rows_of_get hrow)
  rcases href with href | href <;> simpa [hbound, href] using hone

lemma eq_of_length_le_one {α : Type*} {a b : α} : ∀ {l : List α}, l.length ≤ 1 → a ∈ l → b ∈ l → a = b
  | [], _, ha, _ => absurd ha List.not_mem_nil
  | [_], _, ha, hb => (List.mem_singleton.mp ha).trans (List.mem_singleton.mp hb).symm
  | _ :: _ :: _, h, _, _ => absurd h (by simp)

lemma oneReference_spec (h : oneReference event withdrawals = true) (haccount : event.tradingAccount = none)
    (hevent : event.owner = some owner) (hrow : withdrawals.get w = some row)
    (hrow' : withdrawals.get w' = some row') (howner : row.owner = event.owner)
    (howner' : row'.owner = event.owner) (href : row.brokerReferenceId = event.brokerReferenceId)
    (href' : row'.brokerReferenceId = event.brokerReferenceId) : w = w' := by
  simp only [oneReference, haccount, hevent, Option.isSome_none, Option.isNone_some, Bool.false_or,
    decide_eq_true_eq] at h
  rw [← hevent] at h
  have hmem : (w, row) ∈ withdrawals.filter fun _ w =>
      w.owner = event.owner && w.brokerReferenceId = event.brokerReferenceId :=
    Table.mem_filter.mpr ⟨hrow, by simp [howner, href]⟩
  have hmem' : (w', row') ∈ withdrawals.filter fun _ w =>
      w.owner = event.owner && w.brokerReferenceId = event.brokerReferenceId :=
    Table.mem_filter.mpr ⟨hrow', by simp [howner', href']⟩
  exact congrArg Prod.fst (eq_of_length_le_one h hmem hmem')

structure Near (event : BrokerEvent) (owner : ℕ) (row : Withdrawal) : Prop where
  eventOwner : event.owner = some owner
  owner : row.owner = some owner
  reference : row.brokerReferenceId = event.brokerReferenceId
  account : event.tradingAccount = none ∨ row.tradingAccount = none ∨
    row.tradingAccount = event.tradingAccount

lemma found_eq (hdistinct : Distinct withdrawals) (href : event.brokerReferenceId ≠ "")
    (haccounts : accountOfOwner event withdrawals = true) (hone : oneReference event withdrawals = true)
    (hfind : findByReference event withdrawals = some (w, row)) (hrow' : withdrawals.get w' = some row')
    (hnear : Near event owner row') : w = w' := by
  obtain ⟨hrow, hreference, hfound⟩ := of_findByReference hfind
  have hsame : row'.brokerReferenceId = row.brokerReferenceId := hnear.reference.trans hreference.symm
  have hnonempty : row.brokerReferenceId ≠ "" := hreference ▸ href
  have hnonempty' : row'.brokerReferenceId ≠ "" := hnear.reference ▸ href
  cases hfound with
  | strict account haccount hbound =>
    have howner : row.owner = some owner :=
      (accountOfOwner_spec haccounts haccount hrow hbound (.inl hreference)).trans hnear.eventOwner
    rcases hnear.account with hnone | hnone | hequal
    · simp [haccount] at hnone
    · exact (hdistinct.owner w' w row' row owner hrow' hrow hnonempty' hsame.symm hnone hnear.owner
        howner).symm
    · exact hdistinct.account w w' row row' account hrow hrow' hnonempty hsame hbound
        (hequal.trans haccount)
  | unresolved account user haccount hnone huser howner hbound =>
    obtain rfl := Option.some.inj (huser.symm.trans hnear.eventOwner)
    exact hdistinct.owner w w' row row' user hrow hrow' hnonempty hsame hbound howner hnear.owner
  | unbound user haccount huser howner hbound =>
    obtain rfl := Option.some.inj (huser.symm.trans hnear.eventOwner)
    exact hdistinct.owner w w' row row' user hrow hrow' hnonempty hsame hbound howner hnear.owner
  | bridged user haccount huser hnone howner =>
    exact oneReference_spec hone haccount huser hrow hrow' (howner.trans huser.symm)
      (hnear.owner.trans hnear.eventOwner.symm) hreference hnear.reference

lemma not_near_of_findByReference_eq_none (hfind : findByReference event withdrawals = none)
    (hrow : withdrawals.get w = some row) : ¬ Near event owner row := by
  intro hnear
  obtain ⟨hstrict, howner⟩ := findByReference_eq_none hfind hrow hnear.reference
  obtain ⟨hbound, haccount⟩ := howner owner hnear.eventOwner hnear.owner
  rcases hnear.account with hnone | hnone | hequal
  · exact haccount hnone
  · exact hbound hnone
  · obtain ⟨account, hsome⟩ := Option.ne_none_iff_exists'.mp haccount
    exact hstrict account hsome (hequal.trans hsome)

lemma near_of_placed {event' : BrokerEvent} (hplaced : Placed event' row')
    (howner : event.owner = some owner) (howner' : event'.owner = some owner)
    (href : event'.brokerReferenceId = event.brokerReferenceId)
    (haccount : event'.tradingAccount = event.tradingAccount) : Near event owner row' :=
  ⟨howner, hplaced.owner.trans howner', hplaced.reference.trans href, haccount ▸ hplaced.account⟩

end

section

variable {withdrawals withdrawals' : Table Withdrawal} {event : BrokerEvent} {s s' : State}

lemma Distinct.of_keys (h : Distinct withdrawals)
    (hkeys : ∀ w row', withdrawals'.get w = some row' → row'.brokerReferenceId ≠ "" →
      ∃ row, withdrawals.get w = some row ∧ row'.key = row.key) : Distinct withdrawals' := by
  constructor
  · intro w w' row row' account hrow hrow' href hsame haccount haccount'
    obtain ⟨old, hold, hkey⟩ := hkeys w row hrow href
    obtain ⟨old', hold', hkey'⟩ := hkeys w' row' hrow' (hsame ▸ href)
    simp only [Withdrawal.key, Prod.mk.injEq] at hkey hkey'
    exact h.account w w' old old' account hold hold' (hkey.2.2 ▸ href)
      (by rw [← hkey.2.2, ← hkey'.2.2, hsame]) (hkey.1 ▸ haccount) (hkey'.1 ▸ haccount')
  · intro w w' row row' owner hrow hrow' href hsame hbound howner howner'
    obtain ⟨old, hold, hkey⟩ := hkeys w row hrow href
    obtain ⟨old', hold', hkey'⟩ := hkeys w' row' hrow' (hsame ▸ href)
    simp only [Withdrawal.key, Prod.mk.injEq] at hkey hkey'
    exact h.owner w w' old old' owner hold hold' (hkey.2.2 ▸ href)
      (by rw [← hkey.2.2, ← hkey'.2.2, hsame]) (hkey.1 ▸ hbound) (hkey.2.1 ▸ howner) (hkey'.2.1 ▸ howner')

lemma Distinct.take {w : ℕ} {new : Withdrawal} (h : Distinct withdrawals)
    (hfind : findByReference event withdrawals = none)
    (hnew : new.key = (event.tradingAccount, event.owner, event.brokerReferenceId))
    (hrows : ∀ j row, withdrawals'.get j = some row →
      (j = w ∧ row = new) ∨ (j ≠ w ∧ withdrawals.get j = some row)) : Distinct withdrawals' := by
  simp only [Withdrawal.key, Prod.mk.injEq] at hnew
  constructor
  · intro j j' row row' account hrow hrow' href hsame haccount haccount'
    rcases hrows j row hrow with ⟨rfl, rfl⟩ | ⟨-, hold⟩ <;>
      rcases hrows j' row' hrow' with ⟨rfl, rfl⟩ | ⟨-, hold'⟩
    · rfl
    · exact absurd haccount' ((findByReference_eq_none hfind hold' (hsame.trans hnew.2.2)).1 account
        (hnew.1 ▸ haccount))
    · exact absurd haccount ((findByReference_eq_none hfind hold (hsame.symm.trans hnew.2.2)).1 account
        (hnew.1 ▸ haccount'))
    · exact h.account j j' row row' account hold hold' href hsame haccount haccount'
  · intro j j' row row' owner hrow hrow' href hsame hbound howner howner'
    rcases hrows j row hrow with ⟨rfl, rfl⟩ | ⟨-, hold⟩ <;>
      rcases hrows j' row' hrow' with ⟨rfl, rfl⟩ | ⟨-, hold'⟩
    · rfl
    · exact absurd (hnew.1 ▸ hbound) ((findByReference_eq_none hfind hold' (hsame.trans hnew.2.2)).2 owner
        (hnew.2.1 ▸ howner) howner').2
    · exact absurd hbound ((findByReference_eq_none hfind hold (hsame.symm.trans hnew.2.2)).2 owner
        (hnew.2.1 ▸ howner') howner).1
    · exact h.owner j j' row row' owner hold hold' href hsame hbound howner howner'

lemma EventsKept.eq (h : EventsKept s s') {k : ℕ} {event event' : BrokerEvent}
    (hevent : s.events.get k = some event) (hevent' : s'.events.get k = some event') :
    event'.tradingAccount = event.tradingAccount ∧ event'.owner = event.owner ∧
      event'.brokerReferenceId = event.brokerReferenceId := by
  obtain ⟨found, hfound, haccount, howner, href, -⟩ := h k event hevent
  obtain rfl := Option.some.inj (hfound.symm.trans hevent')
  exact ⟨haccount, howner, href⟩

lemma Grouped.quiet (h : Grouped s) (hinv : Inv s) (hwithdrawals : s'.withdrawals = s.withdrawals)
    (hresults : s'.results = s.results) (hkept : EventsKept s s') : Grouped s' where
  distinct := hwithdrawals ▸ h.distinct
  placed r hr w event' hw hevent' href := by
    rw [hresults] at hr
    rw [hwithdrawals]
    obtain ⟨event, hevent, -⟩ := hinv.marked r hr (by rw [hw]; rfl)
    obtain ⟨haccount, howner, hreference⟩ := hkept.eq hevent hevent'
    obtain ⟨row, hrow, hplaced⟩ := h.placed r hr w event hw hevent (hreference ▸ href)
    exact ⟨row, hrow, hplaced.reference.trans hreference.symm, hplaced.owner.trans howner.symm,
      by rw [haccount]; exact hplaced.account⟩
  one r hr r' hr' w w' event₁ event₁' owner hw hw' hevent₁ hevent₁' howner howner' href hsame
      hsameAccount := by
    rw [hresults] at hr hr'
    obtain ⟨event, hevent, -⟩ := hinv.marked r hr (by rw [hw]; rfl)
    obtain ⟨event', hevent', -⟩ := hinv.marked r' hr' (by rw [hw']; rfl)
    obtain ⟨ha, ho, hre⟩ := hkept.eq hevent hevent₁
    obtain ⟨ha', ho', hre'⟩ := hkept.eq hevent' hevent₁'
    exact h.one r hr r' hr' w w' event event' owner hw hw' hevent hevent' (ho ▸ howner) (ho' ▸ howner')
      (hre ▸ href) (by rw [← hre, ← hre', hsame]) (by rw [← ha, ← ha', hsameAccount])

lemma Grouped.record (h : Grouped s) (hinv : Inv s) {r : CorrelationResult}
    (hresults : s'.results = s.results ++ [r]) (hkept : EventsKept s s')
    (hevent : s.events.get r.event = some event) (hdistinct : Distinct s'.withdrawals)
    (hkeys : ∀ w row, s.withdrawals.get w = some row → row.brokerReferenceId ≠ "" →
      ∃ row', s'.withdrawals.get w = some row' ∧ row'.key = row.key)
    (hnew : ∀ w, r.withdrawal = some w → event.brokerReferenceId ≠ "" →
      (∃ row, s'.withdrawals.get w = some row ∧ Placed event row) ∧
      ∀ w' row' owner, s.withdrawals.get w' = some row' → Near event owner row' → w = w') :
    Grouped s' := by
  -- the new result beside an old one
  have hmixed : ∀ r' ∈ s.results, ∀ w w' event' owner, r.withdrawal = some w → r'.withdrawal = some w' →
      s.events.get r'.event = some event' → event.owner = some owner → event'.owner = some owner →
      event.brokerReferenceId ≠ "" → event'.brokerReferenceId = event.brokerReferenceId →
      event'.tradingAccount = event.tradingAccount → w = w' := by
    intro r' hr' w w' event' owner hw hw' hevent' howner howner' href hsame haccount
    obtain ⟨row', hrow', hplaced⟩ := h.placed r' hr' w' event' hw' hevent' (hsame ▸ href)
    exact (hnew w hw href).2 w' row' owner hrow' (near_of_placed hplaced howner howner' hsame haccount)
  constructor
  · exact hdistinct
  · intro r' hr' w event' hw hevent' href
    rw [hresults] at hr'
    rcases List.mem_append.mp hr' with hold | hlast
    · obtain ⟨old, hget, -⟩ := hinv.marked r' hold (by rw [hw]; rfl)
      obtain ⟨haccount, howner, hreference⟩ := hkept.eq hget hevent'
      obtain ⟨row, hrow, hplaced⟩ := h.placed r' hold w old hw hget (hreference ▸ href)
      obtain ⟨row', hrow', hkey⟩ := hkeys w row hrow (by rw [hplaced.reference, ← hreference]; exact href)
      simp only [Withdrawal.key, Prod.mk.injEq] at hkey
      exact ⟨row', hrow', by rw [hkey.2.2, hplaced.reference, hreference],
        by rw [hkey.2.1, hplaced.owner, howner], by rw [hkey.1, haccount]; exact hplaced.account⟩
    · obtain rfl := List.mem_singleton.mp hlast
      obtain ⟨haccount, howner, hreference⟩ := hkept.eq hevent hevent'
      obtain ⟨row, hrow, hplaced⟩ := (hnew w hw (hreference ▸ href)).1
      exact ⟨row, hrow, hplaced.reference.trans hreference.symm, hplaced.owner.trans howner.symm,
        by rw [haccount]; exact hplaced.account⟩
  · intro r₁ hr₁ r₂ hr₂ w w' event₁ event₂ owner hw hw' hevent₁ hevent₂ howner howner' href hsame haccount
    rw [hresults] at hr₁ hr₂
    rcases List.mem_append.mp hr₁ with hold₁ | hlast₁ <;> rcases List.mem_append.mp hr₂ with hold₂ | hlast₂
    · obtain ⟨old₁, hget₁, -⟩ := hinv.marked r₁ hold₁ (by rw [hw]; rfl)
      obtain ⟨old₂, hget₂, -⟩ := hinv.marked r₂ hold₂ (by rw [hw']; rfl)
      obtain ⟨ha, ho, hre⟩ := hkept.eq hget₁ hevent₁
      obtain ⟨ha', ho', hre'⟩ := hkept.eq hget₂ hevent₂
      exact h.one r₁ hold₁ r₂ hold₂ w w' old₁ old₂ owner hw hw' hget₁ hget₂ (ho ▸ howner)
        (ho' ▸ howner') (hre ▸ href) (by rw [← hre, ← hre', hsame]) (by rw [← ha, ← ha', haccount])
    · obtain rfl := List.mem_singleton.mp hlast₂
      obtain ⟨old₁, hget₁, -⟩ := hinv.marked r₁ hold₁ (by rw [hw]; rfl)
      obtain ⟨ha, ho, hre⟩ := hkept.eq hget₁ hevent₁
      obtain ⟨ha', ho', hre'⟩ := hkept.eq hevent hevent₂
      exact (hmixed r₁ hold₁ w' w old₁ owner hw' hw hget₁ (ho' ▸ howner') (ho ▸ howner)
        (by rw [← hre', hsame]; exact href) (by rw [← hre, ← hre', hsame])
        (by rw [← ha, ← ha', haccount])).symm
    · obtain rfl := List.mem_singleton.mp hlast₁
      obtain ⟨old₂, hget₂, -⟩ := hinv.marked r₂ hold₂ (by rw [hw']; rfl)
      obtain ⟨ha, ho, hre⟩ := hkept.eq hevent hevent₁
      obtain ⟨ha', ho', hre'⟩ := hkept.eq hget₂ hevent₂
      exact hmixed r₂ hold₂ w w' old₂ owner hw hw' hget₂ (ho ▸ howner) (ho' ▸ howner') (hre ▸ href)
        (by rw [← hre, ← hre', hsame]) (by rw [← ha, ← ha', haccount])
    · obtain rfl := List.mem_singleton.mp hlast₁
      obtain rfl := List.mem_singleton.mp hlast₂
      exact Option.some.inj (hw.symm.trans hw')

end

section

variable {s : State} {pk : ℕ} {event : BrokerEvent}

lemma get_save {w j : ℕ} {old row found : Withdrawal} (hold : s.withdrawals.get w = some old) :
    (s.withdrawals.modify w fun _ => row).get j = some found ↔
      (j = w ∧ found = row) ∨ (j ≠ w ∧ s.withdrawals.get j = some found) := by
  rw [Table.get_modify]
  split_ifs with hj
  · simp [hj, hold, eq_comm]
  · simp [hj]

lemma get_create {j : ℕ} {row found : Withdrawal} :
    (s.withdrawals.insert s.withdrawals.fresh row).get j = some found ↔
      (j = s.withdrawals.fresh ∧ found = row) ∨
        (j ≠ s.withdrawals.fresh ∧ s.withdrawals.get j = some found) := by
  rw [Table.get_insert _ (Table.fresh_not_mem _)]
  split_ifs with hj
  · simp [hj, eq_comm]
  · simp [hj]

lemma Grouped.save (h : Grouped s) (hinv : Inv s) (hget : s.events.get pk = some event) {w : ℕ}
    {old row : Withdrawal} {outcome : Outcome} (hold : s.withdrawals.get w = some old)
    (hkey : row.key = old.key) (hplaced : event.brokerReferenceId ≠ "" → Placed event row)
    (hfirst : event.brokerReferenceId ≠ "" → ∀ w' row' owner, s.withdrawals.get w' = some row' →
      Near event owner row' → w = w') :
    Grouped (Effect.perform pk event s (.save w row outcome)) := by
  refine h.record hinv rfl (eventsKept_mark rfl (.inl rfl)) hget ?_ (fun j found hfound _ => ?_)
    fun _ hw href => ?_
  · refine h.distinct.of_keys fun j found hfound _ => ?_
    rcases (get_save hold).mp hfound with ⟨rfl, rfl⟩ | ⟨-, hsame⟩
    · exact ⟨old, hold, hkey⟩
    · exact ⟨found, hsame, rfl⟩
  · by_cases hj : j = w
    · subst hj
      obtain rfl := Option.some.inj (hold.symm.trans hfound)
      exact ⟨row, (get_save hold).mpr (.inl ⟨rfl, rfl⟩), hkey⟩
    · exact ⟨found, (get_save hold).mpr (.inr ⟨hj, hfound⟩), rfl⟩
  · obtain rfl := Option.some.inj hw
    exact ⟨⟨row, (get_save hold).mpr (.inl ⟨rfl, rfl⟩), hplaced href⟩, hfirst href⟩

lemma placed_of_key {row : Withdrawal}
    (hkey : row.key = (event.tradingAccount, event.owner, event.brokerReferenceId)) : Placed event row := by
  simp only [Withdrawal.key, Prod.mk.injEq] at hkey
  exact ⟨hkey.2.2, hkey.2.1, .inr (.inr hkey.1)⟩

lemma grouped_correlate (pass : Pass) (now : ℤ) (h : Grouped s) (hinv : Inv s)
    (hclear : toldApart s pk = true) : Grouped (correlate pass now pk s) := by
  unfold correlate
  split
  · exact h
  next event hget =>
    have hdoes : Does pk event s (pass.effect now pk event s) := effect_does pass now
    have hapart : event.correlationStatus ≠ .correlated → event.brokerReferenceId ≠ "" →
        accountOfOwner event s.withdrawals = true ∧ oneReference event s.withdrawals = true := by
      intro hopen href
      simpa [toldApart, hget, hopen, href] using hclear
    cases heffect : pass.effect now pk event s with
    | leave outcome =>
      exact h.record hinv rfl (fun _ found hfound => ⟨found, hfound, rfl, rfl, rfl, id⟩) hget h.distinct
        (fun w row hrow _ => ⟨row, hrow, rfl⟩) nofun
    | ambiguous =>
      have hnot := (heffect ▸ hdoes).isOpen.resolve_left (by simp)
      refine h.record hinv rfl (eventsKept_mark rfl (.inr fun found hfound => ?_)) hget h.distinct
        (fun w row hrow _ => ⟨row, hrow, rfl⟩) nofun
      obtain rfl := Option.some.inj (hget.symm.trans hfound)
      exact hnot
    | join w =>
      have hrefless : event.brokerReferenceId = "" := by
        cases heffect ▸ hdoes with
        | join _ _ href => exact href
      exact h.record hinv rfl (eventsKept_mark rfl (.inl rfl)) hget h.distinct
        (fun w row hrow _ => ⟨row, hrow, rfl⟩) fun _ _ href => absurd hrefless href
    | save w row outcome =>
      cases heffect ▸ hdoes with
      | found _ old target method _ hopen href hfind =>
        obtain ⟨haccounts, hone⟩ := hapart hopen href
        obtain ⟨hold, hreference, hfound⟩ := of_findByReference hfind
        have hplaced : Placed event old := by
          refine ⟨hreference, ?_, ?_⟩
          · cases hfound with
            | strict account haccount hbound =>
              exact accountOfOwner_spec haccounts haccount hold hbound (.inl hreference)
            | unresolved _ _ _ _ howner hrow | unbound _ _ howner hrow | bridged _ _ howner _ hrow =>
              exact hrow.trans howner.symm
          · cases hfound with
            | strict account haccount hbound => exact .inr (.inr (hbound.trans haccount.symm))
            | unresolved _ _ _ _ _ _ hbound => exact .inr (.inl hbound)
            | unbound _ hevent | bridged _ hevent => exact .inl hevent
        refine h.save hinv hget hold key_applyEvent (fun _ => ?_)
          fun _ w' row' owner hrow' hnear => found_eq h.distinct href haccounts hone hfind hrow' hnear
        have hkey : (applyEvent pk event target method old).key = old.key := key_applyEvent
        simp only [Withdrawal.key, Prod.mk.injEq] at hkey
        exact ⟨hkey.2.2.trans hplaced.reference, hkey.2.1.trans hplaced.owner,
          by rw [hkey.1]; exact hplaced.account⟩
      | adopted _ old target hopen href hfind hmem =>
        obtain ⟨haccounts, -⟩ := hapart hopen href
        obtain ⟨hold, hrefless, -, -, haccount, hunbound⟩ := of_mem_heuristicCandidates hmem
        have howner : old.owner = event.owner := by
          match hevent : event.tradingAccount with
          | none => exact hunbound hevent
          | some account =>
            exact accountOfOwner_spec haccounts hevent hold (haccount.trans hevent) (.inr hrefless)
        have hkey : (applyEvent pk event target .referenceId
            { old with brokerReferenceId := event.brokerReferenceId }).key =
              (event.tradingAccount, event.owner, event.brokerReferenceId) := by
          rw [key_applyEvent]
          simp [Withdrawal.key, haccount, howner]
        refine h.record hinv rfl (eventsKept_mark rfl (.inl rfl)) hget ?_ (fun j found hfound hcarries => ?_)
          fun _ hw _ => ?_
        · exact h.distinct.take hfind hkey fun j found hfound => (get_save hold).mp hfound
        · have hj : j ≠ w := by
            rintro rfl
            obtain rfl := Option.some.inj (hold.symm.trans hfound)
            exact hcarries hrefless
          exact ⟨found, (get_save hold).mpr (.inr ⟨hj, hfound⟩), rfl⟩
        · obtain rfl := Option.some.inj hw
          exact ⟨⟨_, (get_save hold).mpr (.inl ⟨rfl, rfl⟩), placed_of_key hkey⟩,
            fun w' row' owner hrow' hnear => absurd hnear (not_near_of_findByReference_eq_none hfind hrow')⟩
      | matched _ old target hopen href hadvance hmem =>
        exact h.save hinv hget (of_mem_heuristicCandidates hmem).1 key_applyEvent
          (fun hcarries => absurd href hcarries) fun hcarries => absurd href hcarries
    | create row =>
      have hkeys : ∀ w found, s.withdrawals.get w = some found → found.brokerReferenceId ≠ "" →
          ∃ row', (Effect.perform pk event s (.create row)).withdrawals.get w = some row' ∧
            row'.key = found.key := fun w found hfound _ =>
        ⟨found, Table.get_insert_of_get (Table.fresh_not_mem _) hfound, rfl⟩
      cases heffect ▸ hdoes with
      | createByReference target now' hopen href hfind hexternal =>
        have hkey : (createByReference pk event target now').key =
            (event.tradingAccount, event.owner, event.brokerReferenceId) := key_createByReference
        refine h.record hinv rfl (eventsKept_mark rfl (.inl rfl)) hget ?_ hkeys fun _ hw _ => ?_
        · exact h.distinct.take hfind hkey fun j found hfound => get_create.mp hfound
        · obtain rfl := Option.some.inj hw
          exact ⟨⟨_, get_create.mpr (.inl ⟨rfl, rfl⟩), placed_of_key hkey⟩,
            fun w' row' owner hrow' hnear => absurd hnear (not_near_of_findByReference_eq_none hfind hrow')⟩
      | createHeuristic target now' hopen href _ hexternal =>
        refine h.record hinv rfl (eventsKept_mark rfl (.inl rfl)) hget ?_ hkeys
          fun _ _ hcarries => absurd href hcarries
        refine h.distinct.of_keys fun j found hfound hcarries => ?_
        rcases get_create.mp hfound with ⟨rfl, rfl⟩ | ⟨-, hsame⟩
        · have hkey : (createHeuristic pk event target now').key = (event.tradingAccount, event.owner, "") :=
            key_createHeuristic
          simp only [Withdrawal.key, Prod.mk.injEq] at hkey
          exact absurd hkey.2.2 hcarries
        · exact ⟨found, hsame, rfl⟩

lemma Grouped.oneForReference (h : Grouped s) : OneForReference s := by
  rintro r hr r' hr' w w' event event' owner hw hw' hevent hevent' howner howner' href hsame
    (haccount | hofOne)
  · exact h.one r hr r' hr' w w' event event' owner hw hw' hevent hevent' howner howner' href hsame haccount
  obtain ⟨row, hrow, hplaced⟩ := h.placed r hr w event hw hevent href
  obtain ⟨row', hrow', hplaced'⟩ := h.placed r' hr' w' event' hw' hevent' (hsame ▸ href)
  have hreference : row.brokerReferenceId ≠ "" := hplaced.reference ▸ href
  have hrows : row'.brokerReferenceId = row.brokerReferenceId :=
    (hplaced'.reference.trans hsame).trans hplaced.reference.symm
  have hown := hplaced.owner.trans howner
  have hown' := hplaced'.owner.trans howner'
  -- one of the two is without an account, or both are under the same one
  match hbound : row.tradingAccount, hbound' : row'.tradingAccount with
  | none, _ => exact h.distinct.owner w w' row row' owner hrow hrow' hreference hrows hbound hown hown'
  | some _, none =>
    exact (h.distinct.owner w' w row' row owner hrow' hrow (hrows ▸ hreference) hrows.symm hbound' hown'
      hown).symm
  | some account, some account' =>
    obtain rfl := hofOne w w' row row' account account' hrow hrow' hown hown' hplaced.reference
      (hplaced'.reference.trans hsame) hbound hbound'
    exact h.distinct.account w w' row row' account hrow hrow' hreference hrows hbound hbound'

end

/-! ### Runs -/

/-- Every event of a list is told apart when its turn comes. -/
def clearDrain (pass : Pass) (now : ℕ → ℤ) : List ℕ → State → Bool
  | [], _ => true
  | pk :: ids, s => toldApart s pk && clearDrain pass now ids (correlate pass (now pk) pk s)

def Pass.clear (pass : Pass) (limit : Option ℕ) (now : ℕ → ℤ) (s : State) : Bool :=
  clearDrain pass now (pass.select limit s) s

/-- Every event that a step correlates is told apart when its turn comes. -/
def clear (s : State) : Action → Bool
  | .arrive _ | .observe _ | .revise _ _ => true
  | .correlate _ _ pk => toldApart s pk
  | .run limit now =>
    let s₁ := Pass.external.run limit now s
    let s₂ := Pass.neutralAdvance.run limit now s₁
    Pass.external.clear limit now s && Pass.neutralAdvance.clear limit now s₁
      && Pass.completion.clear limit now s₂

section

variable {s : State}

lemma eventsKept_arrive (event : BrokerEvent) : EventsKept s (step s (.arrive event)) :=
  fun _ found hfound =>
    ⟨found, Table.get_insert_of_get (Table.fresh_not_mem _) hfound, rfl, rfl, rfl, id⟩

lemma eventsKept_revise (pk : ℕ) (category : TransactionCategory) :
    EventsKept s (step s (.revise pk category)) := by
  intro k event hevent
  simp only [step]
  rw [Table.get_modify]
  split_ifs with hk
  · subst hk
    exact ⟨event.revise category, by rw [hevent]; rfl, rfl, rfl, rfl, id⟩
  · exact ⟨event, hevent, rfl, rfl, rfl, id⟩

lemma inv_step (s : State) (a : Action) (h : Inv s) : Inv (step s a) := by
  cases a with
  | arrive event => exact h.quiet rfl rfl (eventsKept_arrive event)
  | observe observation =>
    exact h.quiet rfl rfl fun _ event hevent => ⟨event, hevent, rfl, rfl, rfl, id⟩
  | revise pk category => exact h.quiet rfl rfl (eventsKept_revise pk category)
  | correlate pass now pk => exact (inv_correlate pass now pk h).1
  | run limit now =>
    exact runCorrelation_invariant (P := Inv) (fun pass now pk s hs => (inv_correlate pass now pk hs).1)
      limit now h

lemma grouped_drain (pass : Pass) (now : ℕ → ℤ) {ids : List ℕ} (h : Grouped s) (hinv : Inv s)
    (hclear : clearDrain pass now ids s = true) :
    Grouped (drain pass now ids s) ∧ Inv (drain pass now ids s) := by
  induction ids generalizing s with
  | nil => exact ⟨h, hinv⟩
  | cons pk ids ih =>
    obtain ⟨hapart, hrest⟩ := Bool.and_eq_true_iff.mp hclear
    exact ih (grouped_correlate pass (now pk) h hinv hapart) (inv_correlate pass (now pk) pk hinv).1 hrest

lemma grouped_step (s : State) (a : Action) (h : Grouped s ∧ Inv s) (hclear : clear s a = true) :
    Grouped (step s a) ∧ Inv (step s a) := by
  refine ⟨?_, inv_step s a h.2⟩
  cases a with
  | arrive event => exact h.1.quiet h.2 rfl rfl (eventsKept_arrive event)
  | observe observation =>
    exact h.1.quiet h.2 rfl rfl fun _ event hevent => ⟨event, hevent, rfl, rfl, rfl, id⟩
  | revise pk category => exact h.1.quiet h.2 rfl rfl (eventsKept_revise pk category)
  | correlate pass now pk => exact grouped_correlate pass now h.1 h.2 hclear
  | run limit now =>
    simp only [clear, Bool.and_eq_true] at hclear
    obtain ⟨⟨hexternal, hneutral⟩, hcompletion⟩ := hclear
    have h₁ := grouped_drain .external now h.1 h.2 hexternal
    have h₂ := grouped_drain .neutralAdvance now h₁.1 h₁.2 hneutral
    exact (grouped_drain .completion now h₂.1 h₂.2 hcompletion).1

end

section

variable (events : Table BrokerEvent) (observations : List BrokerMessageObservation)

lemma inv_start : Inv (start events observations) where
  completed w row hrow := nomatch (hrow : Table.empty.get w = some row)
  created w hw := nomatch (hw : w ∈ Table.empty.keys)
  once := List.Pairwise.nil
  marked _ hr := absurd hr List.not_mem_nil

lemma grouped_start : Grouped (start events observations) where
  distinct :=
    { account := fun w _ row _ _ hrow => nomatch (hrow : Table.empty.get w = some row)
      owner := fun w _ row _ _ hrow => nomatch (hrow : Table.empty.get w = some row) }
  placed _ hr := absurd hr List.not_mem_nil
  one _ hr := absurd hr List.not_mem_nil

end

/-- In every run only an event of an external withdrawal creates a withdrawal, each event is projected at
most once, nothing that a withdrawal has come to is taken back, and only a completed one has a time of
completion. -/
theorem withdrawals_projected (events : Table BrokerEvent) (observations : List BrokerMessageObservation)
    (as : List Action) :
    let s := run step (start events observations) as
    (∀ w ∈ s.withdrawals.keys, ∃ r ∈ s.results, r.outcome = .created ∧ r.withdrawal = some w ∧
      r.category = .externalWithdrawal) ∧
    (s.results.Pairwise fun r r' =>
      r.withdrawal.isSome = true → r'.withdrawal.isSome = true → r.event ≠ r'.event) ∧
    (∀ pre post, as = pre ++ post → WithdrawalsLater (run step (start events observations) pre) s) ∧
    (∀ w row, s.withdrawals.get w = some row → CompletedOnly row) := by
  intro s
  have hinv : Inv s := run_invariant inv_step (inv_start events observations) as
  refine ⟨hinv.created, hinv.once, fun pre post has => ?_, hinv.completed⟩
  have hpost := run_rel (P := fun _ => True) (R := WithdrawalsLater) (fun _ _ _ => trivial)
    (fun s a _ => withdrawalsLater_step s a) trivial (s := run step (start events observations) pre) post
  rw [← run_append, ← has] at hpost
  exact hpost

/-- In every run in which the references are told apart, the events of one owner with one reference and
the same account, or none, end in one withdrawal. -/
theorem oneWithdrawal (events : Table BrokerEvent) (observations : List BrokerMessageObservation)
    (as : List Action)
    (hclear : StepsMeet step (fun s a => clear s a = true) (start events observations) as) :
    let s := run step (start events observations) as
    (∀ w ∈ s.withdrawals.keys, ∃ r ∈ s.results, r.outcome = .created ∧ r.withdrawal = some w ∧
      r.category = .externalWithdrawal) ∧
    (s.results.Pairwise fun r r' =>
      r.withdrawal.isSome = true → r'.withdrawal.isSome = true → r.event ≠ r'.event) ∧
    (∀ pre post, as = pre ++ post → WithdrawalsLater (run step (start events observations) pre) s) ∧
    (∀ w row, s.withdrawals.get w = some row → CompletedOnly row) ∧
    OneForReference s := by
  obtain ⟨hcreated, honce, hlater, hcompleted⟩ := withdrawals_projected events observations as
  have hgrouped := run_invariant_of_meets grouped_step
    ⟨grouped_start events observations, inv_start events observations⟩ hclear
  exact ⟨hcreated, honce, hlater, hcompleted, hgrouped.1.oneForReference⟩

/-- Two accounts of one owner have a withdrawal under the same reference; two events without an account
stand between and after them. -/
def sameReference : Table BrokerEvent :=
  let event (account : Option ℕ) (eventType : EventType) (t : ℤ) : BrokerEvent :=
    { tradingAccount := account
      owner := some 1
      eventType := eventType
      transactionCategory := .externalWithdrawal
      receivedAt := t
      brokerReferenceId := "R-1" }
  let first := Table.empty.insert 1 (event (some 10) .withdrawalRequested 0)
  let second := first.insert 2 (event none .withdrawalConfirmed 1)
  let third := second.insert 3 (event (some 20) .withdrawalRequested 2)
  third.insert 4 (event none .withdrawalProcessing 3)

/-- As long as no event without an account comes after the second withdrawal, the reference is told
apart. -/
theorem oneWithdrawal_sameReference :
    OneForReference (run step (start sameReference []) [.correlate .external 0 1, .correlate .external 0 2,
      .correlate .external 0 3]) :=
  (oneWithdrawal sameReference []
    [.correlate .external 0 1, .correlate .external 0 2, .correlate .external 0 3]
    (by decide +kernel)).2.2.2.2

/-- An event without an account goes to the latest withdrawal with its reference: two events of one owner
with one reference and no account end in different withdrawals. -/
theorem not_oneForReference :
    ¬ ∀ (events : Table BrokerEvent) (observations : List BrokerMessageObservation) (as : List Action),
      OneForReference (run step (start events observations) as) := by
  intro h
  let event (eventType : EventType) (t : ℤ) : BrokerEvent :=
    { owner := some 1
      eventType := eventType
      transactionCategory := .externalWithdrawal
      receivedAt := t
      brokerReferenceId := "R-1"
      correlationStatus := .correlated }
  have hone := h sameReference [] [.run none fun _ => 0]
    ⟨2, .reference, some 1, .externalWithdrawal⟩ (by decide +kernel)
    ⟨4, .reference, some 2, .externalWithdrawal⟩ (by decide +kernel)
    1 2 (event .withdrawalConfirmed 1) (event .withdrawalProcessing 3) 1 rfl rfl
    (by decide +kernel) (by decide +kernel) rfl rfl (by decide) rfl (.inl rfl)
  cases hone

end BrokerIntelligence
end GuvFX
