/-
# The outbox of the alerts

An alert is queued as one row, and dispatchers deliver it: a pass puts the rows back that another
pass has claimed too long ago, selects what is to be sent, and claims, sends and finalises one row
after the other.  Every claim counts as an attempt.

The row is not locked while it is sent, a pass stamps its claims with the time at which it began,
and the last write does not ask whether the claim still stands.  So a slow sender can be overtaken.
The file says when the outbox keeps its promises nevertheless, over all interleavings of the
dispatchers and all crashes.
-/
import Mathlib.Algebra.Order.Field.Rat
import Mathlib.Data.List.Sort
import GuvFX.Lib.Runs
import GuvFX.Lib.Table
import GuvFX.Lib.Text
import GuvFX.TradeCopier.Account

namespace GuvFX
namespace AlertDelivery

open Runs
open Text (clip)

/-! ### Rows -/

inductive Status where
  | pending
  | processing
  | sent
  | failed
  | dead
  deriving DecidableEq, Repr

/-- A row of the outbox, without its texts. -/
structure CopierAlertDelivery where
  dedupKey : String
  status : Status := .pending
  attempts : ℕ := 0
  maxAttempts : ℕ := 5
  lastError : String := ""
  claimedAt : Option Time := none
  deliveredAt : Option Time := none
  deriving DecidableEq, Repr

structure CopierAlertDeliveryAttempt where
  delivery : ℕ
  attempt : ℕ
  transport : String
  transmitted : Bool
  detail : String
  deriving DecidableEq, Repr

/-- The result of one attempt. -/
structure DeliveryOutcome where
  transmitted : Bool
  retryable : Bool := true
  detail : String := ""
  transport : String := ""
  deriving DecidableEq, Repr

/-- How a call of the transport ends: with an outcome, with another value, or with an error. -/
inductive TransportResult where
  | outcome (o : DeliveryOutcome)
  | value (truthy : Bool)
  | raised (error : String)
  deriving DecidableEq, Repr

/-- The outcome of a call of the transport `name`. -/
def TransportResult.toOutcome (name : String) : TransportResult → DeliveryOutcome
  | .outcome o => o
  | .value truthy => { transmitted := truthy, transport := name }
  | .raised error =>
    { transmitted := false, retryable := true, detail := error, transport := name }

/-! ### Operations on a row -/

def claimable (row : CopierAlertDelivery) : Bool := row.status = .pending ∨ row.status = .failed

def final (row : CopierAlertDelivery) : Bool := row.status = .sent ∨ row.status = .dead

def enqueueDelivery (deliveries : Table CopierAlertDelivery) (id : ℕ) (dedupKey : String) :
    Table CopierAlertDelivery :=
  let dedupKey := clip 200 dedupKey
  if dedupKey = "" then deliveries
  else if (deliveries.first fun _ row => row.dedupKey = dedupKey).isSome then deliveries
  else deliveries.insert id { dedupKey }

def claim (now : Time) (row : CopierAlertDelivery) : Option CopierAlertDelivery :=
  if claimable row then
    some { row with status := .processing, claimedAt := some now, attempts := row.attempts + 1 }
  else none

def finalise (outcome : DeliveryOutcome) (now : Time) (row : CopierAlertDelivery) :
    CopierAlertDelivery :=
  if outcome.transmitted then
    { row with status := .sent, deliveredAt := some now, lastError := "" }
  else if outcome.retryable ∧ row.attempts < row.maxAttempts then
    { row with status := .failed, lastError := clip 128 outcome.detail }
  else
    { row with
      status := .dead
      lastError :=
        clip 128 (if outcome.detail = "" then "retries_exhausted" else outcome.detail) }

def audit (id : ℕ) (row : CopierAlertDelivery) (outcome : DeliveryOutcome) :
    CopierAlertDeliveryAttempt where
  delivery := id
  attempt := row.attempts
  transport := clip 32 outcome.transport
  transmitted := outcome.transmitted
  detail := clip 128 outcome.detail

/-- A claim that is older than this many seconds is presumed to be that of a crashed sender. -/
def stuckProcessingSeconds : Time := 300

/-- Was the row claimed too long ago? -/
def stuck (now : Time) (row : CopierAlertDelivery) : Bool :=
  row.status = .processing ∧ ∃ t ∈ row.claimedAt, t < now - stuckProcessingSeconds

/-- Put the row back if its sender is presumed to have crashed. -/
def reapStuckProcessing (now : Time) (row : CopierAlertDelivery) : CopierAlertDelivery :=
  if stuck now row then { row with status := .failed, lastError := "reaped_stuck_processing" }
  else row

/-- The rows that a pass is to send, by their keys. -/
def select (deliveries : Table CopierAlertDelivery) (limit : ℕ) : List ℕ :=
  (((deliveries.filter fun _ row => claimable row).map Prod.fst).insertionSort (· ≤ ·)).take limit

/-! ### Dispatchers -/

/-- The summary of a pass. -/
structure Report where
  sent : ℕ := 0
  failed : ℕ := 0
  dead : ℕ := 0
  considered : ℕ := 0
  deriving DecidableEq, Repr

def Report.add (report : Report) (status : Status) : Report :=
  match status with
  | .sent => { report with sent := report.sent + 1 }
  | .dead => { report with dead := report.dead + 1 }
  | _ => { report with failed := report.failed + 1 }

/-- A pass over the rows that it has selected; `now` is the time at which it began. -/
structure Pass where
  now : Time
  ids : List ℕ
  report : Report := {}
  deriving DecidableEq, Repr

/-- A row that a dispatcher has claimed, with the number of the attempt and the moment. -/
structure Claim where
  id : ℕ
  attempt : ℕ
  taken : Time
  deriving DecidableEq, Repr

inductive Dispatcher where
  | idle
  | started (now : Time) (limit : ℕ)
  | reaped (now : Time) (limit : ℕ)
  | looping (pass : Pass)
  | claimed (pass : Pass) (c : Claim)
  | delivering (pass : Pass) (c : Claim)
  deriving DecidableEq, Repr

def Dispatcher.claim : Dispatcher → Option Claim
  | .claimed _ c => some c
  | .delivering _ c => some c
  | _ => none

structure State where
  clock : Time
  deliveries : Table CopierAlertDelivery
  attempts : List CopierAlertDeliveryAttempt
  dispatchers : ℕ → Dispatcher
  /-- The calls of the transport so far: the row and the number of the attempt. -/
  calls : List (ℕ × ℕ)
  /-- What the passes have returned. -/
  reports : List Report

def init (clock : Time) : State := ⟨clock, Table.empty, [], fun _ => .idle, [], []⟩

def State.goto (s : State) (d : ℕ) (x : Dispatcher) : State :=
  { s with dispatchers := Function.update s.dispatchers d x }

inductive Action where
  | tick (now : Time)
  | enqueue (id : ℕ) (dedupKey : String)
  /-- A pass begins, if the gate `enabled` is open. -/
  | start (d : ℕ) (enabled : Bool) (limit : ℕ)
  | reap (d : ℕ)
  | select (d : ℕ)
  /-- The next row, which another transaction may have locked; or the end of the pass. -/
  | claim (d : ℕ) (locked : Bool)
  | deliver (d : ℕ)
  /-- The call of the transport `name` returns, and the outcome is written. -/
  | finalise (d : ℕ) (name : String) (result : TransportResult)
  | crash (d : ℕ)

def claimNext (s : State) (d : ℕ) (pass : Pass) (locked : Bool) : State :=
  match pass.ids with
  | [] => { s.goto d .idle with reports := s.reports ++ [pass.report] }
  | id :: ids =>
    match if locked then none else (s.deliveries.get id).bind (claim pass.now) with
    | none => s.goto d (.looping { pass with ids })
    | some row =>
      let report := { pass.report with considered := pass.report.considered + 1 }
      { s.goto d (.claimed { pass with ids, report } ⟨id, row.attempts, s.clock⟩) with
        deliveries := s.deliveries.modify id fun _ => row }

def finaliseRow (s : State) (d : ℕ) (pass : Pass) (id : ℕ) (outcome : DeliveryOutcome) : State :=
  match s.deliveries.get id with
  | none => s.goto d .idle
  | some row =>
    let row' := finalise outcome pass.now row
    { s.goto d (.looping { pass with report := pass.report.add row'.status }) with
      deliveries := s.deliveries.modify id fun _ => row'
      attempts := s.attempts ++ [audit id row outcome] }

def step (s : State) : Action → State
  | .tick now => if s.clock ≤ now then { s with clock := now } else s
  | .enqueue id dedupKey => { s with deliveries := enqueueDelivery s.deliveries id dedupKey }
  | .start d enabled limit =>
    match s.dispatchers d with
    | .idle => if enabled then s.goto d (.started s.clock limit) else s
    | _ => s
  | .reap d =>
    match s.dispatchers d with
    | .started now limit =>
      { s.goto d (.reaped now limit) with
        deliveries := s.deliveries.map (reapStuckProcessing now) }
    | _ => s
  | .select d =>
    match s.dispatchers d with
    | .reaped now limit =>
      s.goto d (.looping { now, ids := AlertDelivery.select s.deliveries limit })
    | _ => s
  | .claim d locked =>
    match s.dispatchers d with
    | .looping pass => claimNext s d pass locked
    | _ => s
  | .deliver d =>
    match s.dispatchers d with
    | .claimed pass c =>
      { s.goto d (.delivering pass c) with calls := s.calls ++ [(c.id, c.attempt)] }
    | _ => s
  | .finalise d name result =>
    match s.dispatchers d with
    | .delivering pass c => finaliseRow s d pass c.id (result.toOutcome name)
    | _ => s
  | .crash d => s.goto d .idle

/-! ### What a step can do -/

/-- The steps of the system, as they change the rows and the claims. -/
inductive Effect (s : State) : Action → State → Prop
  | none (a : Action) : Effect s a s
  | ticked (a : Action) (now : Time) (h : s.clock ≤ now) : Effect s a { s with clock := now }
  | queued (a : Action) (id : ℕ) (dedupKey : String) (h : id ∉ s.deliveries.keys) :
      Effect s a { s with deliveries := s.deliveries.insert id { dedupKey } }
  /-- A dispatcher goes on to a point at which it works on no row. -/
  | moved (a : Action) (d : ℕ) (x : Dispatcher) (reports : List Report) (h : x.claim = .none) :
      Effect s a { s.goto d x with reports }
  | reaped (d : ℕ) (now : Time) (limit : ℕ) (hpc : s.dispatchers d = .started now limit) :
      Effect s (.reap d) { s.goto d (.reaped now limit) with
        deliveries := s.deliveries.map (reapStuckProcessing now) }
  | taken (d : ℕ) (locked : Bool) (pass pass' : Pass) (id : ℕ) (row row' : CopierAlertDelivery)
      (hpc : s.dispatchers d = .looping pass) (hrow : s.deliveries.get id = some row)
      (hclaim : claim pass.now row = some row') :
      Effect s (.claim d locked) { s.goto d (.claimed pass' ⟨id, row'.attempts, s.clock⟩) with
        deliveries := s.deliveries.modify id fun _ => row' }
  | called (d : ℕ) (pass : Pass) (c : Claim) (hpc : s.dispatchers d = .claimed pass c) :
      Effect s (.deliver d)
        { s.goto d (.delivering pass c) with calls := s.calls ++ [(c.id, c.attempt)] }
  | finalised (d : ℕ) (name : String) (result : TransportResult) (pass pass' : Pass) (c : Claim)
      (row : CopierAlertDelivery) (outcome : DeliveryOutcome)
      (attempts : List CopierAlertDeliveryAttempt) (hpc : s.dispatchers d = .delivering pass c)
      (hrow : s.deliveries.get c.id = some row) :
      Effect s (.finalise d name result) { s.goto d (.looping pass') with
        deliveries := s.deliveries.modify c.id fun _ => finalise outcome pass.now row
        attempts }

lemma claimNext_effect {s : State} {d : ℕ} {pass : Pass} (hpc : s.dispatchers d = .looping pass)
    (locked : Bool) : Effect s (.claim d locked) (claimNext s d pass locked) := by
  unfold claimNext
  cases hids : pass.ids with
  | nil => exact .moved _ d .idle _ rfl
  | cons id ids =>
    cases locked with
    | true => exact .moved _ d _ s.reports rfl
    | false =>
      simp only [Bool.false_eq_true, if_false]
      cases hrow : s.deliveries.get id with
      | none => exact .moved _ d _ s.reports rfl
      | some row =>
        simp only [Option.bind_some]
        cases hclaim : claim pass.now row with
        | none => exact .moved _ d _ s.reports rfl
        | some row' => exact .taken d false pass _ id row row' hpc hrow hclaim

lemma step_effect (s : State) (a : Action) : Effect s a (step s a) := by
  cases a with
  | tick now =>
    simp only [step]
    split_ifs with h
    · exact .ticked _ now h
    · exact .none _
  | enqueue id dedupKey =>
    simp only [step, enqueueDelivery]
    split_ifs
    · exact .none _
    · exact .none _
    · by_cases hid : id ∈ s.deliveries.keys
      · rw [Table.insert_of_mem _ hid]
        exact .none _
      · exact .queued _ id _ hid
  | start d enabled limit =>
    simp only [step]
    split
    · split_ifs
      · exact .moved _ d _ s.reports rfl
      · exact .none _
    · exact .none _
  | reap d =>
    simp only [step]
    split
    · next now limit hpc => exact .reaped d now limit hpc
    · exact .none _
  | select d =>
    simp only [step]
    split
    · exact .moved _ d _ s.reports rfl
    · exact .none _
  | claim d locked =>
    simp only [step]
    split
    · next pass hpc => exact claimNext_effect hpc locked
    · exact .none _
  | deliver d =>
    simp only [step]
    split
    · next pass c hpc => exact .called d pass c hpc
    · exact .none _
  | finalise d name result =>
    simp only [step]
    split
    · next pass c hpc =>
      unfold finaliseRow
      cases hrow : s.deliveries.get c.id with
      | none => exact .moved _ d _ s.reports rfl
      | some row => exact .finalised d name result pass _ c row _ _ hpc hrow
    · exact .none _
  | crash d => exact .moved _ d _ s.reports rfl

/-! ### When the outbox keeps its promises -/

/-- A pass puts back only rows that have an attempt left and whose senders, if any is alive, claimed
them more than the timeout ago; an outcome is written only if nobody has claimed the row since. -/
def Timely (s : State) : Action → Prop
  | .reap d => ∀ now limit, s.dispatchers d = .started now limit →
      ∀ id row, s.deliveries.get id = some row → stuck now row = true →
        row.attempts < row.maxAttempts ∧
          ∀ d' c, (s.dispatchers d').claim = some c → c.id = id →
            c.taken + stuckProcessingSeconds < s.clock
  | .finalise d _ _ => ∀ pass c, s.dispatchers d = .delivering pass c →
      ∀ row, s.deliveries.get c.id = some row → row.attempts = c.attempt
  | _ => True

/-- A row that is done with stays as it is. -/
def Kept (s s' : State) : Prop :=
  ∀ id row, s.deliveries.get id = some row → final row = true →
    ∃ row', s'.deliveries.get id = some row' ∧ row'.status = row.status

instance : Std.Refl Kept := ⟨fun _ _ row h _ => ⟨row, h, rfl⟩⟩

instance : IsTrans State Kept where
  trans s s' s'' h h' id row hrow hfinal := by
    obtain ⟨row', hrow', hstatus⟩ := h id row hrow hfinal
    have hfinal' : final row' = true := by rwa [final, hstatus, ← final]
    obtain ⟨row'', hrow'', hstatus'⟩ := h' id row' hrow' hfinal'
    exact ⟨row'', hrow'', hstatus'.trans hstatus⟩

def callsOf (s : State) (id : ℕ) : ℕ := s.calls.countP fun call => call.1 = id

/-- A claim leaves the rows alone that a live dispatcher works on within the timeout. -/
def NoTheft (s : State) : Action → Prop
  | .claim d locked => ∀ pass, s.dispatchers d = .looping pass →
      ∀ c, ((step s (.claim d locked)).dispatchers d).claim = some c →
        ∀ d' c', d' ≠ d → (s.dispatchers d').claim = some c' → c'.id = c.id →
          c'.taken + stuckProcessingSeconds < s.clock
  | _ => True

/-- What holds in every timely run: of the rows, of the claims that are worked on, and of the calls
of the transport. -/
structure Inv (s : State) : Prop where
  /-- A row that waits has an attempt left. -/
  bound : ∀ id row, s.deliveries.get id = some row →
    row.attempts ≤ row.maxAttempts ∧ (claimable row = true → row.attempts < row.maxAttempts)
  claims : ∀ d c, (s.dispatchers d).claim = some c → ∃ row, s.deliveries.get c.id = some row ∧
    c.attempt ≤ row.attempts ∧ (row.attempts = c.attempt → final row = false)
  distinct : ∀ d d' c c', (s.dispatchers d).claim = some c → (s.dispatchers d').claim = some c' →
    c.id = c'.id → c.attempt = c'.attempt → d = d'
  /-- The claims within the timeout stand. -/
  held : ∀ d c row, (s.dispatchers d).claim = some c → s.deliveries.get c.id = some row →
    s.clock ≤ c.taken + stuckProcessingSeconds →
      row.status = .processing ∧ row.attempts = c.attempt
  calls_nodup : s.calls.Nodup
  calls : ∀ id n, (id, n) ∈ s.calls → ∃ row, s.deliveries.get id = some row ∧
    1 ≤ n ∧ n ≤ row.attempts
  /-- A claim whose row was not sent yet. -/
  fresh : ∀ d pass c, s.dispatchers d = .claimed pass c → 1 ≤ c.attempt ∧
    (c.id, c.attempt) ∉ s.calls

lemma inv_init (clock : Time) : Inv (init clock) where
  bound := fun _ _ h => nomatch h
  claims := fun _ _ h => nomatch h
  distinct := fun _ _ _ _ h => nomatch h
  held := fun _ _ _ h => nomatch h
  calls_nodup := List.nodup_nil
  calls := fun _ _ h => nomatch h
  fresh := fun _ _ _ h => nomatch h

/-! ### One step -/

section Step

variable {s : State} {d d' : ℕ} {x : Dispatcher} {c : Claim}

lemma dispatchers_goto (s : State) (d d' : ℕ) (x : Dispatcher) :
    (s.goto d x).dispatchers d' = if d' = d then x else s.dispatchers d' := by
  simp only [State.goto, Function.update_apply]

lemma dispatcher_goto {y : Dispatcher} (h : (s.goto d x).dispatchers d' = y) :
    d' = d ∧ x = y ∨ d' ≠ d ∧ s.dispatchers d' = y := by
  rw [dispatchers_goto] at h
  by_cases hd : d' = d
  · rw [if_pos hd] at h
    exact Or.inl ⟨hd, h⟩
  · rw [if_neg hd] at h
    exact Or.inr ⟨hd, h⟩

lemma claim_goto (h : ((s.goto d x).dispatchers d').claim = some c) :
    d' = d ∧ x.claim = some c ∨ d' ≠ d ∧ (s.dispatchers d').claim = some c := by
  rcases dispatcher_goto (x := x) rfl with ⟨hd, hx⟩ | ⟨hd, hx⟩
  · exact Or.inl ⟨hd, by rw [hx, h]⟩
  · exact Or.inr ⟨hd, by rw [hx, h]⟩

lemma claim_of_goto (hx : x.claim = none) (h : ((s.goto d x).dispatchers d').claim = some c) :
    d' ≠ d ∧ (s.dispatchers d').claim = some c := by
  rcases claim_goto h with ⟨-, hc⟩ | h
  · rw [hx] at hc
    cases hc
  · exact h

lemma claimed_of_goto {pass : Pass} (hx : x.claim = none)
    (h : (s.goto d x).dispatchers d' = .claimed pass c) : s.dispatchers d' = .claimed pass c := by
  rcases dispatcher_goto h with ⟨-, heq⟩ | ⟨-, h⟩
  · rw [heq] at hx
    cases hx
  · exact h

lemma inv_moved (h : Inv s) (hx : x.claim = none) (reports : List Report) :
    Inv { s.goto d x with reports } where
  bound := h.bound
  claims := fun d' c hc => h.claims d' c (claim_of_goto hx hc).2
  distinct := fun d₁ d₂ c₁ c₂ h₁ h₂ =>
    h.distinct d₁ d₂ c₁ c₂ (claim_of_goto hx h₁).2 (claim_of_goto hx h₂).2
  held := fun d' c row hc => h.held d' c row (claim_of_goto hx hc).2
  calls_nodup := h.calls_nodup
  calls := h.calls
  fresh := fun d' pass c hc => h.fresh d' pass c (claimed_of_goto hx hc)

lemma inv_ticked (h : Inv s) {now : Time} (hnow : s.clock ≤ now) :
    Inv { s with clock := now } where
  bound := h.bound
  claims := h.claims
  distinct := h.distinct
  held := fun d c row hc hrow hle => h.held d c row hc hrow (hnow.trans hle)
  calls_nodup := h.calls_nodup
  calls := h.calls
  fresh := h.fresh

lemma inv_queued (h : Inv s) {id : ℕ} (hid : id ∉ s.deliveries.keys) (dedupKey : String) :
    Inv { s with deliveries := s.deliveries.insert id { dedupKey } } where
  bound := fun id' row hrow => by
    rw [Table.get_insert _ hid] at hrow
    split_ifs at hrow with heq
    · obtain rfl := Option.some.inj hrow
      exact ⟨Nat.zero_le _, fun _ => Nat.succ_pos 4⟩
    · exact h.bound id' row hrow
  claims := fun d c hc => by
    obtain ⟨row, hrow, hrest⟩ := h.claims d c hc
    exact ⟨row, Table.get_insert_of_get hid hrow, hrest⟩
  distinct := h.distinct
  held := fun d c row hc hrow => by
    obtain ⟨old, hold, -⟩ := h.claims d c hc
    obtain rfl : old = row := Option.some.inj ((Table.get_insert_of_get hid hold).symm.trans hrow)
    exact h.held d c old hc hold
  calls_nodup := h.calls_nodup
  calls := fun id' n hmem => by
    obtain ⟨row, hrow, hrest⟩ := h.calls id' n hmem
    exact ⟨row, Table.get_insert_of_get hid hrow, hrest⟩
  fresh := h.fresh

lemma reap_keeps (now : Time) (row : CopierAlertDelivery) :
    (reapStuckProcessing now row).attempts = row.attempts ∧
      (reapStuckProcessing now row).maxAttempts = row.maxAttempts ∧
      final (reapStuckProcessing now row) = final row := by
  unfold reapStuckProcessing
  split_ifs with hstuck
  · have hstatus : row.status = .processing := by
      simp only [stuck, decide_eq_true_eq] at hstuck
      exact hstuck.1
    exact ⟨rfl, rfl, by simp [final, hstatus]⟩
  · exact ⟨rfl, rfl, rfl⟩

lemma inv_reaped (h : Inv s) {now : Time} {limit : ℕ} (hpc : s.dispatchers d = .started now limit)
    (htimely : Timely s (.reap d)) :
    Inv { s.goto d (.reaped now limit) with
      deliveries := s.deliveries.map (reapStuckProcessing now) } where
  bound := fun id row hrow => by
    rw [Table.get_map, Option.map_eq_some_iff] at hrow
    obtain ⟨old, hold, rfl⟩ := hrow
    obtain ⟨hattempts, hmax, -⟩ := reap_keeps now old
    obtain ⟨hle, hlt⟩ := h.bound id old hold
    rw [hattempts, hmax]
    refine ⟨hle, fun hclaimable => ?_⟩
    by_cases hstuck : stuck now old = true
    · exact (htimely now limit hpc id old hold hstuck).1
    · rw [reapStuckProcessing, if_neg hstuck] at hclaimable
      exact hlt hclaimable
  claims := fun d' c hc => by
    obtain ⟨row, hrow, hle, hlast⟩ := h.claims d' c (claim_of_goto (x := .reaped now limit) rfl hc).2
    obtain ⟨hattempts, -, hfinal⟩ := reap_keeps now row
    refine ⟨reapStuckProcessing now row, ?_, ?_, ?_⟩
    · rw [Table.get_map, hrow, Option.map_some]
    · rwa [hattempts]
    · rwa [hattempts, hfinal]
  distinct := fun d₁ d₂ c₁ c₂ h₁ h₂ =>
    h.distinct d₁ d₂ c₁ c₂ (claim_of_goto (x := .reaped now limit) rfl h₁).2
      (claim_of_goto (x := .reaped now limit) rfl h₂).2
  held := fun d' c row hc hrow hle => by
    have hc := (claim_of_goto (x := .reaped now limit) rfl hc).2
    rw [Table.get_map, Option.map_eq_some_iff] at hrow
    obtain ⟨old, hold, rfl⟩ := hrow
    by_cases hstuck : stuck now old = true
    · -- a claim within the timeout is not put back
      have hlate := (htimely now limit hpc c.id old hold hstuck).2 d' c hc rfl
      exact absurd hle (not_le.mpr hlate)
    · rw [reapStuckProcessing, if_neg hstuck]
      exact h.held d' c old hc hold hle
  calls_nodup := h.calls_nodup
  calls := fun id n hmem => by
    obtain ⟨row, hrow, hone, hle⟩ := h.calls id n hmem
    refine ⟨reapStuckProcessing now row, ?_, hone, ?_⟩
    · rw [Table.get_map, hrow, Option.map_some]
    · rwa [(reap_keeps now row).1]
  fresh := fun d' pass c hc =>
    h.fresh d' pass c (claimed_of_goto (x := .reaped now limit) rfl hc)

lemma inv_called (h : Inv s) {pass : Pass} (hpc : s.dispatchers d = .claimed pass c) :
    Inv { s.goto d (.delivering pass c) with calls := s.calls ++ [(c.id, c.attempt)] } := by
  have hclaim : (s.dispatchers d).claim = some c := by rw [hpc]; rfl
  have hclaims : ∀ d' c', ((s.goto d (.delivering pass c)).dispatchers d').claim = some c' →
      (s.dispatchers d').claim = some c' := by
    intro d' c' hc
    rcases claim_goto hc with ⟨rfl, heq⟩ | ⟨-, hc⟩
    · rw [hclaim]
      exact heq
    · exact hc
  obtain ⟨hone, hnew⟩ := h.fresh d pass c hpc
  constructor
  · exact h.bound
  · exact fun d' c' hc => h.claims d' c' (hclaims d' c' hc)
  · exact fun d₁ d₂ c₁ c₂ h₁ h₂ => h.distinct d₁ d₂ c₁ c₂ (hclaims d₁ c₁ h₁) (hclaims d₂ c₂ h₂)
  · exact fun d' c' row hc => h.held d' c' row (hclaims d' c' hc)
  · exact h.calls_nodup.append (List.nodup_singleton _) (by simpa [List.disjoint_singleton])
  · intro id n hmem
    rcases List.mem_append.mp hmem with hmem | hmem
    · exact h.calls id n hmem
    · obtain ⟨rfl, rfl⟩ := Prod.mk.inj (List.mem_singleton.mp hmem)
      obtain ⟨row, hrow, hle, -⟩ := h.claims d c hclaim
      exact ⟨row, hrow, hone, hle⟩
  · intro d' pass' c' hc
    obtain ⟨hd, hc⟩ : d' ≠ d ∧ s.dispatchers d' = .claimed pass' c' := by
      rcases dispatcher_goto hc with ⟨-, heq⟩ | hc
      · cases heq
      · exact hc
    obtain ⟨hone', hnew'⟩ := h.fresh d' pass' c' hc
    refine ⟨hone', fun hmem => ?_⟩
    rcases List.mem_append.mp hmem with hmem | hmem
    · exact hnew' hmem
    · -- no other dispatcher has this claim
      obtain ⟨hid, hattempt⟩ := Prod.mk.inj (List.mem_singleton.mp hmem)
      have hclaim' : (s.dispatchers d').claim = some c' := by rw [hc]; rfl
      exact hd (h.distinct d' d c' c hclaim' hclaim hid hattempt)

lemma of_claim {now : Time} {row row' : CopierAlertDelivery} (h : claim now row = some row') :
    claimable row = true ∧ row'.status = .processing ∧ row'.attempts = row.attempts + 1 ∧
      row'.maxAttempts = row.maxAttempts := by
  unfold claim at h
  split_ifs at h with hclaimable
  obtain rfl := Option.some.inj h
  exact ⟨hclaimable, rfl, rfl, rfl⟩

lemma final_of_processing {row : CopierAlertDelivery} (h : row.status = .processing) :
    final row = false := by
  simp [final, h]

lemma not_claimable_of_processing {row : CopierAlertDelivery} (h : row.status = .processing) :
    claimable row = false := by
  simp [claimable, h]

lemma not_final_of_claimable {row : CopierAlertDelivery} (h : claimable row = true) :
    final row = false := by
  simp only [claimable, decide_eq_true_eq] at h
  rcases h with h | h <;> simp [final, h]

lemma inv_taken (h : Inv s) {pass' : Pass} {now : Time} {id : ℕ}
    {row row' : CopierAlertDelivery} (hrow : s.deliveries.get id = some row)
    (hclaim : claim now row = some row') :
    Inv { s.goto d (.claimed pass' ⟨id, row'.attempts, s.clock⟩) with
      deliveries := s.deliveries.modify id fun _ => row' } := by
  obtain ⟨hclaimable, hstatus, hattempts, hmax⟩ := of_claim hclaim
  have hnew : (s.deliveries.modify id fun _ => row').get id = some row' := by
    rw [Table.get_modify_self, hrow, Option.map_some]
  have hother : ∀ {j}, j ≠ id → (s.deliveries.modify id fun _ => row').get j = s.deliveries.get j :=
    fun hj => Table.get_modify_of_ne _ _ hj
  constructor
  · intro j r hr
    by_cases hj : j = id
    · subst hj
      obtain rfl := Option.some.inj (hnew.symm.trans hr)
      have hlt := (h.bound j row hrow).2 hclaimable
      rw [not_claimable_of_processing hstatus]
      exact ⟨by omega, fun hno => nomatch hno⟩
    · exact h.bound j r ((hother hj).symm.trans hr)
  · intro d' c' hc
    rcases claim_goto hc with ⟨rfl, heq⟩ | ⟨-, hc⟩
    · obtain rfl := Option.some.inj heq
      exact ⟨row', hnew, le_rfl, fun _ => final_of_processing hstatus⟩
    · obtain ⟨r, hr, hle, hlast⟩ := h.claims d' c' hc
      by_cases hj : c'.id = id
      · obtain rfl : row = r := Option.some.inj (hrow.symm.trans (hj ▸ hr))
        rw [hj]
        exact ⟨row', hnew, by omega, fun heq => final_of_processing hstatus⟩
      · exact ⟨r, (hother hj).trans hr, hle, hlast⟩
  · -- the number of the attempt is new
    have hold : ∀ d' c', (s.dispatchers d').claim = some c' → c'.id = id →
        c'.attempt ≠ row'.attempts := by
      intro d' c' hc hj
      obtain ⟨r, hr, hle, -⟩ := h.claims d' c' hc
      obtain rfl : row = r := Option.some.inj (hrow.symm.trans (hj ▸ hr))
      omega
    intro d₁ d₂ c₁ c₂ h₁ h₂ hid hattempt
    rcases claim_goto h₁ with ⟨hd₁, heq⟩ | ⟨-, h₁'⟩
    · rcases claim_goto h₂ with ⟨hd₂, -⟩ | ⟨-, h₂'⟩
      · exact hd₁.trans hd₂.symm
      · obtain rfl := Option.some.inj heq
        exact absurd hattempt.symm (hold d₂ c₂ h₂' hid.symm)
    · rcases claim_goto h₂ with ⟨-, heq⟩ | ⟨-, h₂'⟩
      · obtain rfl := Option.some.inj heq
        exact absurd hattempt (hold d₁ c₁ h₁' hid)
      · exact h.distinct d₁ d₂ c₁ c₂ h₁' h₂' hid hattempt
  · intro d' c' r hc hr hle
    rcases claim_goto hc with ⟨rfl, heq⟩ | ⟨-, hc⟩
    · obtain rfl := Option.some.inj heq
      obtain rfl := Option.some.inj (hnew.symm.trans hr)
      exact ⟨hstatus, rfl⟩
    · by_cases hj : c'.id = id
      · -- a row that is worked on within the timeout does not wait
        have hproc := (h.held d' c' row hc (by rw [hj]; exact hrow) hle).1
        rw [not_claimable_of_processing hproc] at hclaimable
        cases hclaimable
      · exact h.held d' c' r hc ((hother hj).symm.trans hr) hle
  · exact h.calls_nodup
  · intro j n hmem
    obtain ⟨r, hr, hone, hle⟩ := h.calls j n hmem
    by_cases hj : j = id
    · subst hj
      obtain rfl : row = r := Option.some.inj (hrow.symm.trans hr)
      exact ⟨row', hnew, hone, by omega⟩
    · exact ⟨r, (hother hj).trans hr, hone, hle⟩
  · intro d' pass c' hc
    rcases dispatcher_goto hc with ⟨-, heq⟩ | ⟨-, hc⟩
    · obtain ⟨-, rfl⟩ := Dispatcher.claimed.inj heq
      refine ⟨hattempts ▸ Nat.succ_pos _, fun hmem => ?_⟩
      obtain ⟨r, hr, -, hle⟩ := h.calls id _ hmem
      obtain rfl : row = r := Option.some.inj (hrow.symm.trans hr)
      have hlt : row'.attempts ≤ row.attempts := hle
      omega
    · exact h.fresh d' pass c' hc

lemma finalise_keeps (outcome : DeliveryOutcome) (now : Time) (row : CopierAlertDelivery) :
    (finalise outcome now row).attempts = row.attempts ∧
      (finalise outcome now row).maxAttempts = row.maxAttempts ∧
      (claimable (finalise outcome now row) = true → row.attempts < row.maxAttempts) := by
  unfold finalise
  by_cases htransmitted : outcome.transmitted = true
  · rw [if_pos htransmitted]
    exact ⟨rfl, rfl, by simp [claimable]⟩
  · rw [if_neg htransmitted]
    by_cases hretry : outcome.retryable = true ∧ row.attempts < row.maxAttempts
    · rw [if_pos hretry]
      exact ⟨rfl, rfl, fun _ => hretry.2⟩
    · rw [if_neg hretry]
      exact ⟨rfl, rfl, by simp [claimable]⟩

lemma inv_finalised (h : Inv s) {pass pass' : Pass} {name : String} {result : TransportResult}
    {row : CopierAlertDelivery} (outcome : DeliveryOutcome)
    (attempts : List CopierAlertDeliveryAttempt) (hpc : s.dispatchers d = .delivering pass c)
    (hrow : s.deliveries.get c.id = some row) (htimely : Timely s (.finalise d name result)) :
    Inv { s.goto d (.looping pass') with
      deliveries := s.deliveries.modify c.id fun _ => finalise outcome pass.now row
      attempts } := by
  have hclaim : (s.dispatchers d).claim = some c := by rw [hpc]; rfl
  have hstands : row.attempts = c.attempt := htimely pass c hpc row hrow
  obtain ⟨hattempts, hmax, hretry⟩ := finalise_keeps outcome pass.now row
  have hnew : (s.deliveries.modify c.id fun _ => finalise outcome pass.now row).get c.id
      = some (finalise outcome pass.now row) := by
    rw [Table.get_modify_self, hrow, Option.map_some]
  have hother : ∀ {j}, j ≠ c.id →
      (s.deliveries.modify c.id fun _ => finalise outcome pass.now row).get j
        = s.deliveries.get j :=
    fun hj => Table.get_modify_of_ne _ _ hj
  -- the claims of the others are not the last one of this row
  have hlast : ∀ d' c', d' ≠ d → (s.dispatchers d').claim = some c' → c'.id = c.id →
      c'.attempt ≠ row.attempts := by
    intro d' c' hd hc hid heq
    exact hd (h.distinct d' d c' c hc hclaim hid (heq.trans hstands))
  constructor
  · intro j r hr
    by_cases hj : j = c.id
    · subst hj
      obtain rfl := Option.some.inj (hnew.symm.trans hr)
      rw [hattempts, hmax]
      exact ⟨(h.bound _ row hrow).1, hretry⟩
    · exact h.bound j r ((hother hj).symm.trans hr)
  · intro d' c' hc
    obtain ⟨hd, hc⟩ := claim_of_goto (x := .looping pass') rfl hc
    obtain ⟨r, hr, hle, hstanding⟩ := h.claims d' c' hc
    by_cases hj : c'.id = c.id
    · obtain rfl : row = r := Option.some.inj (hrow.symm.trans (hj ▸ hr))
      rw [hj]
      refine ⟨_, hnew, by rwa [hattempts], fun heq => ?_⟩
      rw [hattempts] at heq
      exact absurd heq.symm (hlast d' c' hd hc hj)
    · exact ⟨r, (hother hj).trans hr, hle, hstanding⟩
  · exact fun d₁ d₂ c₁ c₂ h₁ h₂ => h.distinct d₁ d₂ c₁ c₂
      (claim_of_goto (x := .looping pass') rfl h₁).2 (claim_of_goto (x := .looping pass') rfl h₂).2
  · intro d' c' r hc hr hle
    obtain ⟨hd, hc⟩ := claim_of_goto (x := .looping pass') rfl hc
    by_cases hj : c'.id = c.id
    · have heq := (h.held d' c' row hc (by rw [hj]; exact hrow) hle).2
      exact absurd heq.symm (hlast d' c' hd hc hj)
    · exact h.held d' c' r hc ((hother hj).symm.trans hr) hle
  · exact h.calls_nodup
  · intro j n hmem
    obtain ⟨r, hr, hone, hle⟩ := h.calls j n hmem
    by_cases hj : j = c.id
    · subst hj
      obtain rfl : row = r := Option.some.inj (hrow.symm.trans hr)
      exact ⟨_, hnew, hone, by rwa [hattempts]⟩
    · exact ⟨r, (hother hj).trans hr, hone, hle⟩
  · exact fun d' pass₁ c' hc =>
      h.fresh d' pass₁ c' (claimed_of_goto (x := .looping pass') rfl hc)

lemma inv_step (s : State) (a : Action) (h : Inv s) (htimely : Timely s a) : Inv (step s a) := by
  have heff := step_effect s a
  revert heff
  generalize step s a = s'
  intro heff
  cases heff with
  | none => exact h
  | ticked _ now hnow => exact inv_ticked h hnow
  | queued _ id dedupKey hid => exact inv_queued h hid dedupKey
  | moved _ d x reports hx => exact inv_moved h hx reports
  | reaped d now limit hpc => exact inv_reaped h hpc htimely
  | taken d locked pass pass' id row row' hpc hrow hclaim => exact inv_taken h hrow hclaim
  | called d pass c hpc => exact inv_called h hpc
  | finalised d name result pass pass' c row outcome attempts hpc hrow =>
    exact inv_finalised h outcome attempts hpc hrow htimely

lemma kept_step (s : State) (a : Action) (h : Inv s) (htimely : Timely s a) :
    Kept s (step s a) := by
  have heff := step_effect s a
  revert heff
  generalize step s a = s'
  intro heff id row hrow hfinal
  cases heff with
  | none => exact ⟨row, hrow, rfl⟩
  | ticked => exact ⟨row, hrow, rfl⟩
  | queued _ id' dedupKey hid => exact ⟨row, Table.get_insert_of_get hid hrow, rfl⟩
  | moved => exact ⟨row, hrow, rfl⟩
  | reaped d now limit hpc =>
    refine ⟨row, ?_, rfl⟩
    have hno : ¬ stuck now row = true := by
      intro hstuck
      simp only [stuck, decide_eq_true_eq] at hstuck
      rw [final_of_processing hstuck.1] at hfinal
      cases hfinal
    simp only [Table.get_map, hrow, Option.map_some, reapStuckProcessing, if_neg hno]
  | taken d locked pass pass' id' row₁ row' hpc hrow₁ hclaim =>
    have hid : id ≠ id' := by
      rintro rfl
      obtain rfl := Option.some.inj (hrow₁.symm.trans hrow)
      rw [not_final_of_claimable (of_claim hclaim).1] at hfinal
      cases hfinal
    exact ⟨row, (Table.get_modify_of_ne _ _ hid).trans hrow, rfl⟩
  | called => exact ⟨row, hrow, rfl⟩
  | finalised d name result pass pass' c row₁ outcome attempts hpc hrow₁ =>
    have hid : id ≠ c.id := by
      rintro rfl
      obtain rfl := Option.some.inj (hrow₁.symm.trans hrow)
      obtain ⟨r, hr, -, hlast⟩ := h.claims d c (by rw [hpc]; rfl)
      obtain rfl := Option.some.inj (hr.symm.trans hrow)
      rw [hlast (htimely pass c hpc r hrow)] at hfinal
      cases hfinal
    exact ⟨row, (Table.get_modify_of_ne _ _ hid).trans hrow, rfl⟩

/-- A claim takes only a row on which nobody works within the timeout. -/
lemma noTheft_step (h : Inv s) (a : Action) : NoTheft s a := by
  cases a with
  | claim d locked =>
    intro pass hpc c hc d' c' hd hc' hid
    by_contra hlate
    have hle : s.clock ≤ c'.taken + stuckProcessingSeconds := not_lt.mp hlate
    have heff : step s (.claim d locked) = claimNext s d pass locked := by simp only [step, hpc]
    rw [heff] at hc
    unfold claimNext at hc
    split at hc
    · exact absurd rfl (claim_of_goto (x := .idle) rfl hc).1
    · next id ids hids =>
      split at hc
      · exact absurd rfl (claim_of_goto (x := .looping _) rfl hc).1
      · next row' hrow' =>
        cases locked with
        | true => cases hrow'
        | false =>
          obtain ⟨row, hrow, hclaim⟩ := Option.bind_eq_some_iff.mp hrow'
          rcases claim_goto hc with ⟨-, heq⟩ | ⟨hne, -⟩
          · obtain rfl := Option.some.inj heq
            have hproc := (h.held d' c' row hc' (by rw [hid]; exact hrow) hle).1
            have hclaimable := (of_claim hclaim).1
            rw [not_claimable_of_processing hproc] at hclaimable
            cases hclaimable
          · exact absurd rfl hne
  | _ => trivial

lemma Inv.callsOf_le (h : Inv s) {id : ℕ} {row : CopierAlertDelivery}
    (hrow : s.deliveries.get id = some row) : callsOf s id ≤ row.maxAttempts := by
  have hsub : (s.calls.filter fun call => call.1 = id).Subperm
      ((List.range' 1 row.attempts).map fun n => (id, n)) := by
    refine List.subperm_of_subset (h.calls_nodup.filter _) ?_
    rintro ⟨j, n⟩ hmem
    obtain ⟨hcall, hj⟩ := List.mem_filter.mp hmem
    obtain rfl : j = id := by simpa using hj
    obtain ⟨r, hr, hone, hle⟩ := h.calls j n hcall
    obtain rfl := Option.some.inj (hr.symm.trans hrow)
    refine List.mem_map_of_mem (List.mem_range'_1.mpr ⟨hone, ?_⟩)
    omega
  calc callsOf s id = (s.calls.filter fun call => call.1 = id).length :=
        List.countP_eq_length_filter
    _ ≤ ((List.range' 1 row.attempts).map fun n => (id, n)).length := hsub.length_le
    _ = row.attempts := by rw [List.length_map, List.length_range']
    _ ≤ row.maxAttempts := (h.bound id row hrow).1

end Step

/-! ### Runs -/

/-- **The promises of the outbox**, in every timely run: rows that are done with stay so, the
transport is called at most as often as a row allows, and no claim takes a row that a live dispatcher
works on within the timeout. -/
theorem outbox_of_timely (clock : Time) (as : List Action)
    (h : StepsMeet step Timely (init clock) as) :
    (∀ pre post, as = pre ++ post →
      Kept (run step (init clock) pre) (run step (init clock) as)) ∧
    (∀ id row, (run step (init clock) as).deliveries.get id = some row →
      callsOf (run step (init clock) as) id ≤ row.maxAttempts) ∧
    StepsMeet step NoTheft (init clock) as := by
  refine ⟨?_, fun id row hrow => ?_, ?_⟩
  · rintro pre post rfl
    obtain ⟨hpre, hpost⟩ := stepsMeet_append.mp h
    rw [run_append]
    exact run_rel_of_meets inv_step kept_step
      (run_invariant_of_meets inv_step (inv_init clock) hpre) hpost
  · have hinv : Inv (run step (init clock) as) :=
      run_invariant_of_meets inv_step (inv_init clock) h
    exact hinv.callsOf_le hrow
  · refine stepsMeet_iff.mpr fun pre a post has => ?_
    rw [has] at h
    have hinv : Inv (run step (init clock) pre) :=
      run_invariant_of_meets inv_step (inv_init clock) (stepsMeet_append.mp h).1
    exact noTheft_step hinv a

/-! ### Runs of two dispatchers -/

/-- A dispatcher takes the first row that waits, and calls the transport. -/
def serve (d : ℕ) : List Action :=
  [.start d true 10, .reap d, .select d, .claim d false, .deliver d]

def returns (d : ℕ) (transmitted : Bool) : Action :=
  .finalise d "smtp" (.outcome { transmitted })

def sampleRow (status : Status) (attempts : ℕ) (claimedAt deliveredAt : Option Time)
    (lastError : String) : CopierAlertDelivery :=
  { dedupKey := "copier:Z:1", status, attempts, claimedAt, deliveredAt, lastError }

/-- The first sender crashes, and the row is sent by another. -/
def crashed : List Action :=
  .enqueue 1 "copier:Z:1" :: serve 0 ++ .crash 0 :: .tick 301 :: serve 1 ++ [returns 1 true]

lemma timely_reap {s : State} {d : ℕ} (now : Time) (limit : ℕ)
    (hpc : s.dispatchers d = .started now limit)
    (hrows : ∀ e ∈ s.deliveries.rows, stuck now e.2 = true → e.2.attempts < e.2.maxAttempts)
    (hidle : ∀ d', (s.dispatchers d').claim = none) : Timely s (.reap d) := by
  intro now' limit' hpc' id row hrow hstuck
  obtain ⟨rfl, rfl⟩ := Dispatcher.started.inj (hpc.symm.trans hpc')
  refine ⟨hrows (id, row) (Table.mem_rows_of_get hrow) hstuck, fun d' c hc => ?_⟩
  rw [hidle d'] at hc
  cases hc

lemma timely_crashed : StepsMeet step Timely (init 0) crashed := by
  refine ⟨trivial, trivial, ?_, trivial, trivial, trivial, trivial, trivial, trivial, ?_, trivial,
    trivial, trivial, ?_, trivial⟩
  · refine timely_reap 0 10 (by decide +kernel) (by decide +kernel) fun d => ?_
    match d with
    | 0 => decide +kernel
    | d + 1 => rfl
  · refine timely_reap 301 10 (by decide +kernel) (by decide +kernel) fun d => ?_
    match d with
    | 0 => decide +kernel
    | 1 => decide +kernel
    | d + 2 => rfl
  · intro pass c hpc row hrow
    have hpc' : (run step (init 0) (crashed.take 13)).dispatchers 1
        = .delivering ⟨301, [], { considered := 1 }⟩ ⟨1, 2, 301⟩ := by decide +kernel
    obtain ⟨-, rfl⟩ := Dispatcher.delivering.inj (hpc'.symm.trans hpc)
    have hrow' : (run step (init 0) (crashed.take 13)).deliveries.get 1
        = some (sampleRow .processing 2 (some 301) none "reaped_stuck_processing") := by
      decide +kernel
    obtain rfl := Option.some.inj (hrow'.symm.trans hrow)
    rfl

/-- After the crash of its first sender the row is sent, once, and stays so. -/
theorem outbox_of_timely_crashed :
    (run step (init 0) crashed).deliveries.get 1
      = some (sampleRow .sent 2 (some 301) (some 301) "") ∧
    callsOf (run step (init 0) crashed) 1 ≤ 5 ∧ StepsMeet step NoTheft (init 0) crashed := by
  have hrow : (run step (init 0) crashed).deliveries.get 1
      = some (sampleRow .sent 2 (some 301) (some 301) "") := by decide +kernel
  obtain ⟨-, hcalls, hclean⟩ := outbox_of_timely 0 crashed timely_crashed
  exact ⟨hrow, hcalls 1 _ hrow, hclean⟩

/-- The first sender is slow; in the meantime the row is put back and sent by another. -/
def sentByAnother : List Action :=
  .enqueue 1 "copier:Z:1" :: serve 0 ++ .tick 301 :: serve 1 ++ [returns 1 true]

def sixCrashes : List Action :=
  .enqueue 1 "copier:Z:1" ::
    (List.range 6).flatMap fun i => serve i ++ [.crash i, .tick (301 * (i + 1))]

/-- A pass claims its second row when its first one has taken long, with the stamp of its start. -/
def longPass : List Action :=
  .enqueue 1 "copier:Z:1" :: .enqueue 2 "copier:Z:2" :: serve 0 ++
    [.tick 301, returns 0 true, .claim 0 false, .deliver 0, .start 1 true 10, .reap 1, .select 1]

/-- A row that was sent fails again; a row is sent a sixth time of five; a row is claimed while it is
being sent, at the moment at which its sender has claimed it. -/
theorem outbox_broken :
    ¬ Kept (run step (init 0) sentByAnother)
      (run step (init 0) (sentByAnother ++ [returns 0 false])) ∧
    (let s := run step (init 0) sixCrashes
     ∃ row, s.deliveries.get 1 = some row ∧ row.maxAttempts < callsOf s 1) ∧
    ¬ NoTheft (run step (init 0) longPass) (.claim 1 false) := by
  refine ⟨fun hkept => ?_, ?_, fun hclean => ?_⟩
  · have hsent : (run step (init 0) sentByAnother).deliveries.get 1
        = some (sampleRow .sent 2 (some 301) (some 301) "") := by decide +kernel
    have hfailed : (run step (init 0) (sentByAnother ++ [returns 0 false])).deliveries.get 1
        = some (sampleRow .failed 2 (some 301) (some 301) "") := by decide +kernel
    obtain ⟨row', hrow', hstatus⟩ := hkept 1 _ hsent rfl
    obtain rfl := Option.some.inj (hfailed.symm.trans hrow')
    cases hstatus
  · have hrow : (run step (init 0) sixCrashes).deliveries.get 1
        = some (sampleRow .processing 6 (some 1505) none "reaped_stuck_processing") := by
      decide +kernel
    exact ⟨_, hrow, by decide +kernel⟩
  · have hpc : (run step (init 0) longPass).dispatchers 1 = .looping ⟨301, [2], {}⟩ := by
      decide +kernel
    have htaken : ((step (run step (init 0) longPass) (.claim 1 false)).dispatchers 1).claim
        = some ⟨2, 2, 301⟩ := by decide +kernel
    have hsending : ((run step (init 0) longPass).dispatchers 0).claim = some ⟨2, 1, 301⟩ := by
      decide +kernel
    have hlate := hclean _ hpc _ htaken 0 _ (by decide) hsending rfl
    revert hlate
    decide +kernel

end AlertDelivery
end GuvFX
