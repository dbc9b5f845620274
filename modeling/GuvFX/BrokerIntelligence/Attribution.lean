/-
# Which withdrawals an event changes

An event changes a withdrawal of its own owner, or one that is bound to its own account.  With an account
it never changes a withdrawal of another account; without one it changes a withdrawal that is bound to an
account by its reference alone.  An event without a reference can still stamp the anchor of its stage on a
withdrawal that has come to its end, and does nothing else to it.
-/
import GuvFX.BrokerIntelligence.Withdrawals

namespace GuvFX
namespace BrokerIntelligence

open Runs

/-! ### Withdrawals without a reference -/

structure Opened (w : Withdrawal) : Prop where
  requestedAt : w.requestedAt.isSome = true
  requestedEvent : w.requestedEvent.isSome = true
  method : w.correlationMethod.isSome = true
  completedAt : w.status = .completed → w.completedAt.isSome = true
  completedEvent : w.status = .completed → w.completedEvent.isSome = true

/-- Every withdrawal without a reference has been opened so. -/
def ReflessOpened (s : State) : Prop :=
  ∀ w row, s.withdrawals.get w = some row → row.brokerReferenceId = "" → Opened row

section

variable {w : Withdrawal} {event : BrokerEvent} {target : WithdrawalStatus} {pk : ℕ} {t : ℤ}
  {stage : Option Stage}

lemma Opened.stampStage (h : Opened w) : Opened (w.stampStage stage t) := by
  obtain ⟨hat, hevent, hmethod, hdone, hlast⟩ := h
  unfold Withdrawal.stampStage
  split <;> exact ⟨hat, hevent, hmethod, hdone, hlast⟩

/-- A part of a row that is set stays set. -/
lemma some_getD_of_isSome {α : Type*} {x : Option α} {a : α} (h : x.isSome = true) :
    some (x.getD a) = x := by
  obtain ⟨b, rfl⟩ := Option.isSome_iff_exists.mp h
  rfl

lemma stampRequest_of_opened (h : Opened w) : w.stampRequest pk target t = w := by
  unfold Withdrawal.stampRequest
  split_ifs
  · rfl
  · rw [some_getD_of_isSome h.requestedAt, some_getD_of_isSome h.requestedEvent]

lemma recordMethod_of_opened (h : Opened w) (method : CorrelationMethod) : w.recordMethod method = w := by
  rw [Withdrawal.recordMethod, some_getD_of_isSome h.method]

lemma stampCompletion_of_opened (h : Opened w) : w.stampCompletion pk target t = w := by
  unfold Withdrawal.stampCompletion
  split_ifs with hdone
  · rw [some_getD_of_isSome (h.completedAt hdone.2), some_getD_of_isSome (h.completedEvent hdone.2)]
  · rfl

lemma advanceStatus_of_isTerminal (h : isTerminal w.status = true) : w.advanceStatus target t = w :=
  if_neg (not_lt.mpr (statusRank_le_of_isTerminal h))

lemma fillAmount_of_eq (hamount : w.amount = event.amount) (hcurrency : w.currency = event.currency) :
    w.fillAmount event = w := by
  unfold Withdrawal.fillAmount
  rw [← hamount, ← hcurrency, Option.or_self, ite_self]

lemma applyEvent_of_isTerminal {method : CorrelationMethod} (hopened : Opened w)
    (hterminal : isTerminal w.status = true) (hamount : w.amount = event.amount)
    (hcurrency : w.currency = event.currency) :
    applyEvent pk event target method w = w.stampStage (stageAnchor event.eventType) event.eventTime := by
  simp only [applyEvent]
  rw [advanceStatus_of_isTerminal hterminal, fillAmount_of_eq hamount hcurrency,
    stampRequest_of_opened hopened, stampCompletion_of_opened hopened.stampStage,
    recordMethod_of_opened hopened.stampStage]

/-- What is recorded stays recorded. -/
lemma isSome_of_setOnce {α : Type*} {x x' : Option α} (h : SetOnce x x') (hx : x.isSome = true) :
    x'.isSome = true := by
  obtain ⟨a, ha⟩ := Option.isSome_iff_exists.mp hx
  rw [h a ha]
  rfl

def Withdrawal.completion (w : Withdrawal) : Option ℤ × Option ℕ := (w.completedAt, w.completedEvent)

@[simp] lemma completion_advanceStatus : (w.advanceStatus target t).completion = w.completion := by
  unfold Withdrawal.advanceStatus
  split_ifs <;> rfl

@[simp] lemma completion_fillAmount : (w.fillAmount event).completion = w.completion := rfl

@[simp] lemma completion_stampRequest : (w.stampRequest pk target t).completion = w.completion := by
  unfold Withdrawal.stampRequest
  split_ifs <;> rfl

@[simp] lemma completion_stampStage : (w.stampStage stage t).completion = w.completion := by
  unfold Withdrawal.stampStage
  split <;> rfl

@[simp] lemma status_fillAmount : (w.fillAmount event).status = w.status := rfl

@[simp] lemma status_stampRequest : (w.stampRequest pk target t).status = w.status := by
  unfold Withdrawal.stampRequest
  split_ifs <;> rfl

@[simp] lemma status_stampCompletion : (w.stampCompletion pk target t).status = w.status := by
  unfold Withdrawal.stampCompletion
  split_ifs <;> rfl

@[simp] lemma requestedEvent_advanceStatus : (w.advanceStatus target t).requestedEvent = w.requestedEvent := by
  unfold Withdrawal.advanceStatus
  split_ifs <;> rfl

@[simp] lemma requestedEvent_fillAmount : (w.fillAmount event).requestedEvent = w.requestedEvent := rfl

@[simp] lemma requestedEvent_stampStage : (w.stampStage stage t).requestedEvent = w.requestedEvent := by
  unfold Withdrawal.stampStage
  split <;> rfl

@[simp] lemma requestedEvent_stampCompletion :
    (w.stampCompletion pk target t).requestedEvent = w.requestedEvent := by
  unfold Withdrawal.stampCompletion
  split_ifs <;> rfl

lemma reference_applyEvent {method : CorrelationMethod} :
    (applyEvent pk event target method w).brokerReferenceId = w.brokerReferenceId := by
  have hkey : (applyEvent pk event target method w).key = w.key := key_applyEvent
  exact congrArg (fun key => key.2.2) hkey

lemma setOnce_requestedEvent {method : CorrelationMethod} :
    SetOnce w.requestedEvent (applyEvent pk event target method w).requestedEvent := by
  simp only [applyEvent, Withdrawal.recordMethod, requestedEvent_stampCompletion, requestedEvent_stampStage]
  unfold Withdrawal.stampRequest
  split_ifs
  · simpa using SetOnce.refl _
  · simpa using setOnce_getD _ _

lemma completion_applyEvent {method : CorrelationMethod} (h : Opened w)
    (hdone : (applyEvent pk event target method w).status = .completed) :
    (applyEvent pk event target method w).completedAt.isSome = true ∧
      (applyEvent pk event target method w).completedEvent.isSome = true := by
  simp only [applyEvent, Withdrawal.recordMethod, status_stampCompletion] at hdone ⊢
  by_cases htarget : target = .completed
  · rw [Withdrawal.stampCompletion, if_pos ⟨htarget, hdone⟩]
    exact ⟨rfl, rfl⟩
  · -- without a completion the status has been reached before
    have hbefore : w.status = .completed := by
      simp only [status_stampStage, status_stampRequest, status_fillAmount] at hdone
      unfold Withdrawal.advanceStatus at hdone
      split_ifs at hdone
      · exact absurd hdone htarget
      · exact hdone
    have hsame : ((((w.advanceStatus target event.eventTime).fillAmount event).stampRequest pk target
        event.eventTime).stampStage (stageAnchor event.eventType) event.eventTime).completion =
          w.completion := by simp
    simp only [Withdrawal.completion, Prod.mk.injEq] at hsame
    simp only [Withdrawal.stampCompletion, htarget, false_and, if_false]
    rw [hsame.1, hsame.2]
    exact ⟨h.completedAt hbefore, h.completedEvent hbefore⟩

lemma Opened.applyEvent {method : CorrelationMethod} (h : Opened w) :
    Opened (applyEvent pk event target method w) where
  requestedAt := isSome_of_setOnce later_applyEvent.requested h.requestedAt
  requestedEvent := isSome_of_setOnce setOnce_requestedEvent h.requestedEvent
  method := isSome_of_setOnce later_applyEvent.method h.method
  completedAt hdone := (completion_applyEvent h hdone).1
  completedEvent hdone := (completion_applyEvent h hdone).2

lemma opened_createHeuristic {now : ℤ} (htarget : isTerminal target = false) :
    Opened (createHeuristic pk event target now) := by
  have hnot : target ≠ .completed := by
    rintro rfl
    cases htarget
  exact Opened.stampStage ⟨rfl, rfl, rfl, fun h => absurd h hnot, fun h => absurd h hnot⟩

end

lemma reflessOpened_correlate {s : State} (pass : Pass) (now : ℤ) (pk : ℕ) (h : ReflessOpened s) :
    ReflessOpened (correlate pass now pk s) := by
  unfold correlate
  split
  · exact h
  next event hget =>
    have hdoes : Does pk event s (pass.effect now pk event s) := effect_does pass now
    cases heffect : pass.effect now pk event s with
    | leave | ambiguous | join => exact h
    | save w row outcome =>
      intro j found hfound hrefless
      cases heffect ▸ hdoes with
      | found _ old target method _ hopen href hfind =>
        obtain ⟨hold, hreference, -⟩ := of_findByReference hfind
        rcases (get_save hold).mp hfound with ⟨-, rfl⟩ | ⟨-, hsame⟩
        · exact absurd ((hreference.symm.trans reference_applyEvent.symm).trans hrefless) href
        · exact h j found hsame hrefless
      | adopted _ old target hopen href hfind hmem =>
        rcases (get_save (of_mem_heuristicCandidates hmem).1).mp hfound with ⟨-, rfl⟩ | ⟨-, hsame⟩
        · exact absurd (reference_applyEvent.symm.trans hrefless) href
        · exact h j found hsame hrefless
      | matched _ old target hopen href hadvance hmem =>
        obtain ⟨hold, hreference, -⟩ := of_mem_heuristicCandidates hmem
        rcases (get_save hold).mp hfound with ⟨-, rfl⟩ | ⟨-, hsame⟩
        · exact (h w old hold hreference).applyEvent
        · exact h j found hsame hrefless
    | create row =>
      intro j found hfound hrefless
      rcases get_create.mp hfound with ⟨rfl, rfl⟩ | ⟨-, hsame⟩
      · cases heffect ▸ hdoes with
        | createByReference target now' hopen href hfind hexternal =>
          have hkey : (createByReference pk event target now').key =
              (event.tradingAccount, event.owner, event.brokerReferenceId) := key_createByReference
          simp only [Withdrawal.key, Prod.mk.injEq] at hkey
          exact absurd (hkey.2.2.symm.trans hrefless) href
        | createHeuristic target now' hopen href htarget hexternal => exact opened_createHeuristic htarget
      · exact h j found hsame hrefless

lemma reflessOpened_step (s : State) (a : Action) (h : ReflessOpened s) : ReflessOpened (step s a) := by
  cases a with
  | arrive | observe | revise => exact h
  | correlate pass now pk => exact reflessOpened_correlate pass now pk h
  | run limit now =>
    exact runCorrelation_invariant (P := ReflessOpened)
      (fun pass now pk s hs => reflessOpened_correlate pass now pk hs) limit now h

/-! ### The firewall -/

structure Firewall (event : BrokerEvent) (row row' : Withdrawal) : Prop where
  owner : row.owner = event.owner ∨
    (event.tradingAccount.isSome = true ∧ row.tradingAccount = event.tradingAccount)
  account : ∀ account, event.tradingAccount = some account →
    row.tradingAccount = none ∨ row.tradingAccount = some account
  /-- An event without an account changes a withdrawal that is bound to one by its reference alone, and
  only one of its owner. -/
  bound : event.tradingAccount = none → row.tradingAccount.isSome = true →
    event.brokerReferenceId ≠ "" ∧ row.brokerReferenceId = event.brokerReferenceId ∧
      row.owner = event.owner
  /-- On a withdrawal at its end an event without a reference stamps the anchor of its stage, if that is
  not set. -/
  terminal : event.brokerReferenceId = "" → isTerminal row.status = true →
    row' = row.stampStage (stageAnchor event.eventType) event.eventTime

lemma Found.firewall {withdrawals : Table Withdrawal} {event : BrokerEvent} {row row' : Withdrawal}
    (h : Found event withdrawals row) (href : event.brokerReferenceId ≠ "")
    (hreference : row.brokerReferenceId = event.brokerReferenceId) : Firewall event row row' where
  owner := by
    cases h with
    | strict account haccount hbound => exact .inr ⟨by rw [haccount]; rfl, hbound.trans haccount.symm⟩
    | unresolved _ _ _ _ howner hrow | unbound _ _ howner hrow | bridged _ _ howner _ hrow =>
      exact .inl (hrow.trans howner.symm)
  account account haccount := by
    cases h with
    | strict account' haccount' hbound => exact .inr (hbound.trans (haccount'.symm.trans haccount))
    | unresolved _ _ _ _ _ _ hbound => exact .inl hbound
    | unbound _ hnone | bridged _ hnone => simp [hnone] at haccount
  bound hnone hbound := by
    refine ⟨href, hreference, ?_⟩
    cases h with
    | strict account haccount => simp [haccount] at hnone
    | unresolved _ _ haccount => simp [haccount] at hnone
    | unbound _ _ howner hrow | bridged _ _ howner _ hrow => exact hrow.trans howner.symm
  terminal hrefless := absurd hrefless href

/-- A candidate is let through. -/
lemma firewall_of_mem_heuristicCandidates {withdrawals : Table Withdrawal} {event : BrokerEvent} {w : ℕ}
    {row row' : Withdrawal} (hmem : (w, row) ∈ heuristicCandidates event withdrawals)
    (hterminal : event.brokerReferenceId = "" → isTerminal row.status = true →
      row' = row.stampStage (stageAnchor event.eventType) event.eventTime) : Firewall event row row' := by
  obtain ⟨-, -, -, -, haccount, hunbound⟩ := of_mem_heuristicCandidates hmem
  refine ⟨?_, fun account hsome => .inr (haccount.trans hsome), fun hnone hbound => ?_, hterminal⟩
  · by_cases hnone : event.tradingAccount = none
    · exact .inl (hunbound hnone)
    · exact .inr ⟨Option.isSome_iff_ne_none.mpr hnone, haccount⟩
  · rw [haccount, hnone] at hbound
    cases hbound

lemma firewall_correlate {s : State} (pass : Pass) (now : ℤ) {pk w : ℕ} {event : BrokerEvent}
    {row row' : Withdrawal} (hopened : ReflessOpened s) (hevent : s.events.get pk = some event)
    (hrow : s.withdrawals.get w = some row)
    (hrow' : (correlate pass now pk s).withdrawals.get w = some row') (hchanged : row' ≠ row) :
    Firewall event row row' := by
  have hsame : ∀ found, s.withdrawals.get w = some found → found = row := fun found hfound =>
    Option.some.inj (hfound.symm.trans hrow)
  have hdoes : Does pk event s (pass.effect now pk event s) := effect_does pass now
  simp only [correlate, hevent] at hrow'
  cases heffect : pass.effect now pk event s with
  | leave | ambiguous | join =>
    rw [heffect] at hrow'
    exact absurd (hsame row' hrow') hchanged
  | save k saved outcome =>
    rw [heffect] at hrow' hdoes
    cases hdoes with
    | found _ old target method _ hopen href hfind =>
      obtain ⟨hold, hreference, hfound⟩ := of_findByReference hfind
      rcases (get_save hold).mp hrow' with ⟨rfl, -⟩ | ⟨-, hother⟩
      · obtain rfl := hsame old hold
        exact hfound.firewall href hreference
      · exact absurd (hsame row' hother) hchanged
    | adopted _ old target hopen href hfind hmem =>
      have hold := (of_mem_heuristicCandidates hmem).1
      rcases (get_save hold).mp hrow' with ⟨rfl, -⟩ | ⟨-, hother⟩
      · obtain rfl := hsame old hold
        exact firewall_of_mem_heuristicCandidates hmem fun hrefless => absurd hrefless href
      · exact absurd (hsame row' hother) hchanged
    | matched _ old target hopen href hadvance hmem =>
      obtain ⟨hold, hrefless, hamount, hcurrency, -⟩ := of_mem_heuristicCandidates hmem
      rcases (get_save hold).mp hrow' with ⟨rfl, rfl⟩ | ⟨-, hother⟩
      · obtain rfl := hsame old hold
        exact firewall_of_mem_heuristicCandidates hmem fun _ hterminal =>
          applyEvent_of_isTerminal (hopened w old hold hrefless) hterminal hamount hcurrency
      · exact absurd (hsame row' hother) hchanged
  | create created =>
    rw [heffect] at hrow'
    rcases get_create.mp hrow' with ⟨rfl, -⟩ | ⟨-, hother⟩
    · exact absurd (Table.mem_keys_of_get hrow) (Table.fresh_not_mem _)
    · exact absurd (hsame row' hother) hchanged

/-! ### Runs -/

structure Changes (s : State) (pass : Pass) (now : ℤ) (pk w : ℕ) (event : BrokerEvent)
    (row row' : Withdrawal) : Prop where
  found : s.events.get pk = some event
  before : s.withdrawals.get w = some row
  after : (correlate pass now pk s).withdrawals.get w = some row'
  changed : row' ≠ row

/-- Whatever an event changes in any run, the firewall lets through. -/
theorem attribution (events : Table BrokerEvent) (observations : List BrokerMessageObservation)
    (as : List Action) (pass : Pass) (now : ℤ) (pk w : ℕ) (event : BrokerEvent) (row row' : Withdrawal)
    (hchanges : Changes (run step (start events observations) as) pass now pk w event row row') :
    Firewall event row row' := by
  have hopened : ReflessOpened (run step (start events observations) as) :=
    run_invariant reflessOpened_step (fun w row hrow => nomatch (hrow : Table.empty.get w = some row)) as
  exact firewall_correlate pass now hopened hchanges.found hchanges.before hchanges.after hchanges.changed

/-- A withdrawal of account 10 is requested and completed without a reference, and confirmed late; and two
events have the same reference and account, and different owners. -/
def lateConfirmation : Table BrokerEvent :=
  let event (owner : ℕ) (ref : String) (eventType : EventType) (t : ℤ) : BrokerEvent :=
    { tradingAccount := some 10
      owner := some owner
      eventType := eventType
      transactionCategory := .externalWithdrawal
      receivedAt := t
      brokerReferenceId := ref
      amount := some 50000
      currency := "USD" }
  let requested := Table.empty.insert 1 (event 1 "" .withdrawalRequested 0)
  let completed := requested.insert 2 (event 1 "" .withdrawalCompleted 1)
  let late := completed.insert 3 (event 1 "" .withdrawalConfirmed 2)
  let referred := late.insert 4 (event 1 "R-1" .withdrawalRequested 3)
  referred.insert 5 (event 2 "R-1" .withdrawalConfirmed 4)

/-- An event of `lateConfirmation`. -/
def confirmedBy (owner : ℕ) (ref : String) (t : ℤ) : BrokerEvent where
  tradingAccount := some 10
  owner := some owner
  eventType := .withdrawalConfirmed
  transactionCategory := .externalWithdrawal
  receivedAt := t
  brokerReferenceId := ref
  amount := some 50000
  currency := "USD"

def completedWithdrawal : Withdrawal where
  tradingAccount := some 10
  owner := some 1
  amount := some 50000
  currency := "USD"
  requestedAt := some 0
  completedAt := some 1
  lastStatusChangeAt := some 1
  status := .completed
  requestedEvent := some 1
  completedEvent := some 2
  correlationMethod := some .heuristic
  createdAt := 0

def referredWithdrawal : Withdrawal where
  tradingAccount := some 10
  owner := some 1
  brokerReferenceId := "R-1"
  amount := some 50000
  currency := "USD"
  requestedAt := some 3
  lastStatusChangeAt := some 3
  status := .requested
  requestedEvent := some 4
  correlationMethod := some .referenceId
  createdAt := 0

/-- A late confirmation is let through. -/
theorem attribution_lateConfirmation :
    Firewall (confirmedBy 1 "" 2) completedWithdrawal { completedWithdrawal with confirmedAt := some 2 } :=
  attribution lateConfirmation [] [.correlate .external 0 1, .correlate .external 0 2] .external 0 3 1
    (confirmedBy 1 "" 2) completedWithdrawal { completedWithdrawal with confirmedAt := some 2 }
    ⟨by decide +kernel, by decide +kernel, by decide +kernel, by decide⟩

/-- An event changes a withdrawal of a different owner, if it is bound to the event's account; and an event
without a reference changes a withdrawal that has come to its end. -/
theorem not_attribution :
    (¬ ∀ (events : Table BrokerEvent) (observations : List BrokerMessageObservation) (as : List Action)
      (pass : Pass) (now : ℤ) (pk w : ℕ) (event : BrokerEvent) (row row' : Withdrawal),
      Changes (run step (start events observations) as) pass now pk w event row row' →
        row.owner = event.owner) ∧
    (¬ ∀ (events : Table BrokerEvent) (observations : List BrokerMessageObservation) (as : List Action)
      (pass : Pass) (now : ℤ) (pk w : ℕ) (event : BrokerEvent) (row row' : Withdrawal),
      Changes (run step (start events observations) as) pass now pk w event row row' →
        event.brokerReferenceId = "" → event.eventType ≠ .withdrawalRequested →
          isTerminal row.status = false) := by
  constructor
  · intro h
    have howner := h lateConfirmation [] [.correlate .external 0 4] .external 0 5 1 (confirmedBy 2 "R-1" 4)
      referredWithdrawal { referredWithdrawal with
        status := .confirmed
        confirmedAt := some 4
        lastStatusChangeAt := some 4 }
      ⟨by decide +kernel, by decide +kernel, by decide +kernel, by decide⟩
    cases howner
  · intro h
    have hopen := h lateConfirmation [] [.correlate .external 0 1, .correlate .external 0 2] .external 0 3 1
      (confirmedBy 1 "" 2) completedWithdrawal { completedWithdrawal with confirmedAt := some 2 }
      ⟨by decide +kernel, by decide +kernel, by decide +kernel, by decide⟩ rfl (by decide)
    cases hopen

end BrokerIntelligence
end GuvFX
