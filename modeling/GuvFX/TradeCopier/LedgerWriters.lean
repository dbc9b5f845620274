/-
# Two writers of one ledger

The recording of a poll and the projection of revisions both append to the ledger of a master.  Each
is a transaction: it locks the row of the master, reads it, inserts the poll, asks for the highest
number, inserts the events one by one, saves the row, and commits.  It may fail before any of these
statements, and then nothing of it is seen.  Between two statements every other session may move,
and rows may be ingested.

The lock serialises the writers, so that a commit publishes what the whole pass, executed at once
on the row it finds, would have written.
-/
import GuvFX.Lib.Locks
import GuvFX.Lib.Runs
import GuvFX.TradeCopier.EventProjection

namespace GuvFX
namespace LedgerWriters

open Diff EventProjection Ledger Observer Runs
open Reconcile (MasterReadResult)

/-! ### Transactions -/

/-- What a session wants to write. -/
inductive Job where
  | record (now : Time) (result : MasterReadResult) (leaseToken : Option String)
  | project (now : Time)

/-- A transaction that has inserted its poll. -/
structure Txn where
  now : Time
  poll : Poll
  specs : List EventSpec
  source : DetectionSource
  brokerEventTime : EventSpec → Option Time
  /-- The watermark that it saves. -/
  lastProjectedIngestId : ℕ

/-- The first part of a pass, up to the insertion of the poll: `none` if there is nothing to
write. -/
def openTxn (rows : List IngestedRevision) (m : Master) : Job → Except DbError (Option Txn)
  | .record now result leaseToken =>
    if leaseToken.any fun token => leaseLost now token m then .ok none
    else if staleRead result m then .ok none
    else
      match storeSnapshot (result.readAt.getD now) result.positions with
      | .error err => .error err
      | .ok poll =>
        .ok (some
          { now, poll, specs := observedChanges m result.positions, source := .poll
            brokerEventTime := fun _ => none
            lastProjectedIngestId := m.lastProjectedIngestId })
  | .project now =>
    let new := newRows m.lastProjectedIngestId rows
    if new = [] then .ok none
    else
      match storeSnapshot now (passOverlay rows m) with
      | .error err => .error err
      | .ok poll =>
        .ok (some
          { now, poll, specs := diffPositions (baselineOf m) (passOverlay rows m), source := .event
            brokerEventTime := fun spec =>
              admissibilityReference spec (passWinners m.lastProjectedIngestId rows spec.ticket)
            lastProjectedIngestId := (new.map (·.id)).foldl max 0 })

/-- The event of the change at position `i`, numbered from `base + 1`. -/
def Txn.eventAt (t : Txn) (base i : ℕ) (spec : EventSpec) : MasterEvent :=
  { sequence := base + 1 + i, spec := storeSpec spec, source := t.source
    brokerEventTime := t.brokerEventTime spec, observedAt := t.now }

/-- Where a session stands in its transaction. -/
inductive Pc where
  | idle
  | locked (job : Job)
  | polled (t : Txn)
  /-- It has the highest number `base` and has inserted some events, each under its key. -/
  | writing (t : Txn) (base : ℕ) (written : List (ℕ × MasterEvent))
  | saved (t : Txn) (written : List (ℕ × MasterEvent))

def Pc.holds : Pc → Bool
  | .idle => false
  | _ => true

structure State where
  master : Master
  keys : List ℕ
  rows : List IngestedRevision
  nextKey : ℕ
  lock : Locks Unit
  pc : ℕ → Pc

/-- A master before anything has happened. -/
def init : State where
  master := Master.new
  keys := []
  rows := []
  nextKey := 1
  lock := .free
  pc := fun _ => .idle

/-- The steps of the system. -/
inductive Action where
  /-- The rows that are visible to the passes change. -/
  | ingest (rows : List IngestedRevision)
  /-- The observation lease is claimed, released or taken over. -/
  | lease (token : String) (leaseUntil : Option Time)
  /-- Another table user draws a key. -/
  | draw
  | begin_ (p : ℕ) (job : Job)
  | createPoll (p : ℕ)
  | readSequence (p : ℕ)
  | createEvent (p : ℕ)
  | save (p : ℕ)
  | commit (p : ℕ)
  /-- The session fails, and its transaction is rolled back. -/
  | fail (p : ℕ)

/-- Session `p` moves on. -/
def State.goto (s : State) (p : ℕ) (pc : Pc) : State := { s with pc := Function.update s.pc p pc }

/-- Session `p` ends its transaction without a trace. -/
def State.rollback (s : State) (p : ℕ) : State :=
  { s.goto p .idle with lock := s.lock.release p }

def Txn.publish (t : Txn) (events : List MasterEvent) (m : Master) : Master :=
  { m with
    lastPoll := some t.poll
    events := m.events ++ events
    lastProjectedIngestId := t.lastProjectedIngestId }

def step (s : State) : Action → State
  | .ingest rows => { s with rows }
  | .lease token leaseUntil =>
    if s.lock () = none then
      { s with
        master := { s.master with
          observationLeaseToken := token, observationLeaseUntil := leaseUntil } }
    else s
  | .draw => { s with nextKey := s.nextKey + 1 }
  | .begin_ p job =>
    match s.pc p with
    | .idle =>
      if s.lock () = none then { s.goto p (.locked job) with lock := s.lock.take () p } else s
    | _ => s
  | .createPoll p =>
    match s.pc p with
    | .locked job =>
      match openTxn s.rows s.master job with
      | .ok (some t) => s.goto p (.polled t)
      | _ => s.rollback p
    | _ => s
  | .readSequence p =>
    match s.pc p with
    | .polled t => s.goto p (.writing t (maxSequence s.master.events) [])
    | _ => s
  | .createEvent p =>
    match s.pc p with
    | .writing t base written =>
      match t.specs[written.length]? with
      | none => s
      | some spec =>
        let event := t.eventAt base written.length spec
        -- the number is unique for the master
        if s.master.events.any fun e => e.sequence = event.sequence then s.rollback p
        else
          { s.goto p (.writing t base (written ++ [(s.nextKey, event)])) with
            nextKey := s.nextKey + 1 }
    | _ => s
  | .save p =>
    match s.pc p with
    | .writing t _ written =>
      if written.length = t.specs.length then s.goto p (.saved t written) else s
    | _ => s
  | .commit p =>
    match s.pc p with
    | .saved t written =>
      { s.rollback p with
        master := t.publish (written.map Prod.snd) s.master
        keys := s.keys ++ written.map Prod.fst }
    | _ => s
  | .fail p => s.rollback p

/-! ### What a step can do -/

/-- The effects of a step, with what enables each of them. -/
inductive Effect (s : State) : State → Prop where
  | stutter : Effect s s
  | ingest (rows : List IngestedRevision) : Effect s { s with rows }
  | lease (token : String) (leaseUntil : Option Time) (hfree : s.lock () = none) :
      Effect s { s with
        master := { s.master with
          observationLeaseToken := token, observationLeaseUntil := leaseUntil } }
  | draw : Effect s { s with nextKey := s.nextKey + 1 }
  | begin_ (p : ℕ) (job : Job) (hpc : s.pc p = .idle) (hfree : s.lock () = none) :
      Effect s { s.goto p (.locked job) with lock := s.lock.take () p }
  | rollback (p : ℕ) : Effect s (s.rollback p)
  | createPoll (p : ℕ) (job : Job) (t : Txn) (hpc : s.pc p = .locked job)
      (hopen : openTxn s.rows s.master job = .ok (some t)) : Effect s (s.goto p (.polled t))
  | readSequence (p : ℕ) (t : Txn) (hpc : s.pc p = .polled t) :
      Effect s (s.goto p (.writing t (maxSequence s.master.events) []))
  | createEvent (p : ℕ) (t : Txn) (base : ℕ) (written : List (ℕ × MasterEvent)) (spec : EventSpec)
      (hpc : s.pc p = .writing t base written) (hspec : t.specs[written.length]? = some spec) :
      Effect s { s.goto p
          (.writing t base (written ++ [(s.nextKey, t.eventAt base written.length spec)])) with
        nextKey := s.nextKey + 1 }
  | save (p : ℕ) (t : Txn) (base : ℕ) (written : List (ℕ × MasterEvent))
      (hpc : s.pc p = .writing t base written) (hall : written.length = t.specs.length) :
      Effect s (s.goto p (.saved t written))
  | commit (p : ℕ) (t : Txn) (written : List (ℕ × MasterEvent)) (hpc : s.pc p = .saved t written) :
      Effect s { s.rollback p with
        master := t.publish (written.map Prod.snd) s.master
        keys := s.keys ++ written.map Prod.fst }

/-- **Every step has one of the effects.** -/
theorem step_effect (s : State) (a : Action) : Effect s (step s a) := by
  cases a with
  | ingest rows => exact .ingest rows
  | lease token leaseUntil =>
    simp only [step]
    split_ifs with hfree
    · exact .lease token leaseUntil hfree
    · exact .stutter
  | draw => exact .draw
  | begin_ p job =>
    simp only [step]
    split
    · rename_i hpc
      split_ifs with hfree
      · exact .begin_ p job hpc hfree
      · exact .stutter
    · exact .stutter
  | createPoll p =>
    simp only [step]
    split
    · rename_i job hpc
      split
      · rename_i t hopen
        exact .createPoll p job t hpc hopen
      · exact .rollback p
    · exact .stutter
  | readSequence p =>
    simp only [step]
    split
    · rename_i t hpc
      exact .readSequence p t hpc
    · exact .stutter
  | createEvent p =>
    simp only [step]
    split
    · rename_i t base written hpc
      split
      · exact .stutter
      · rename_i spec hspec
        split_ifs
        · exact .rollback p
        · exact .createEvent p t base written spec hpc hspec
    · exact .stutter
  | save p =>
    simp only [step]
    split
    · rename_i t base written hpc
      split_ifs with hall
      · exact .save p t base written hpc hall
      · exact .stutter
    · exact .stutter
  | commit p =>
    simp only [step]
    split
    · rename_i t written hpc
      exact .commit p t written hpc
    · exact .stutter
  | fail p => exact .rollback p

/-! ### A pass, executed at once -/

def Txn.events (t : Txn) (m : Master) : List MasterEvent :=
  ledgerRows (maxSequence m.events) t.source t.brokerEventTime t.now t.specs

/-- What becomes visible of a master in one step: nothing, a change of the lease, or a whole pass
with its poll, its watermark and all of its events. -/
inductive Published (m : Master) : Master → Prop where
  | nothing : Published m m
  | lease (token : String) (leaseUntil : Option Time) :
      Published m { m with observationLeaseToken := token, observationLeaseUntil := leaseUntil }
  | recorded (now : Time) (result : MasterReadResult) (leaseToken : Option String) (m' : Master)
      (events : ℕ) (firstPoll : Bool)
      (h : recordObservation now result leaseToken m = .ok (m', .recorded events firstPoll)) :
      Published m m'
  | projected (now : Time) (rows : List IngestedRevision) (m' : Master)
      (outcome : ProjectionOutcome)
      (h : projectMasterEvents now rows m = .ok (m', outcome)) : Published m m'

variable {s : State} {m : Master} {t : Txn} {rows : List IngestedRevision} {job : Job}

/-- The statements of a transaction, taken together, are the pass. -/
lemma published_of_openTxn (h : openTxn rows m job = .ok (some t)) :
    Published m (t.publish (t.events m) m) := by
  cases job with
  | record now result leaseToken =>
    simp only [openTxn] at h
    split_ifs at h with hlease hstale
    · cases h
    · cases h
    · cases hstore : storeSnapshot (result.readAt.getD now) result.positions with
      | error err =>
        rw [hstore] at h
        cases h
      | ok poll =>
        rw [hstore] at h
        obtain rfl := Option.some.inj (Except.ok.inj h)
        refine .recorded now result leaseToken _
          (ledgerRows (maxSequence m.events) .poll (fun _ => none) now
            (observedChanges m result.positions)).length m.lastPoll.isNone ?_
        simp only [recordObservation, if_neg hlease, if_neg hstale, hstore]
        rfl
  | project now =>
    simp only [openTxn] at h
    split_ifs at h with hnew
    · cases h
    · rcases projectMasterEvents_cases now rows m with
        ⟨hnil, -⟩ | ⟨-, poll, outcome, hstore, hproject⟩
      · exact absurd hnil hnew
      · rw [hstore] at h
        obtain rfl := Option.some.inj (Except.ok.inj h)
        exact .projected now rows _ outcome hproject

lemma getElem?_events (t : Txn) (m : Master) (i : ℕ) :
    (t.events m)[i]? = t.specs[i]?.map (t.eventAt (maxSequence m.events) i) := by
  rw [Txn.events, ledgerRows, List.getElem?_map, List.getElem?_zipIdx]
  cases t.specs[i]? <;> rfl

@[simp] lemma length_events (t : Txn) (m : Master) : (t.events m).length = t.specs.length :=
  length_ledgerRows ..

/-! ### What a session knows -/

/-- The poll of a transaction was computed from the master as it is. -/
def Opened (m : Master) (t : Txn) : Prop := ∃ rows job, openTxn rows m job = .ok (some t)

/-- The events that a transaction has inserted are the first ones of its pass, and their keys
continue those of the ledger. -/
structure Written (s : State) (t : Txn) (written : List (ℕ × MasterEvent)) : Prop where
  opened : Opened s.master t
  events : written.map Prod.snd = (t.events s.master).take written.length
  sorted : (s.keys ++ written.map Prod.fst).Pairwise (· < ·)
  drawn : ∀ k ∈ s.keys ++ written.map Prod.fst, k < s.nextKey

/-- What a session knows of the master it has locked. -/
def Pc.Facts (s : State) : Pc → Prop
  | .idle | .locked _ => True
  | .polled t => Opened s.master t
  | .writing t base written => base = maxSequence s.master.events ∧ Written s t written
  | .saved t written => written.length = t.specs.length ∧ Written s t written

def LockHeld (s : State) : Prop := Locks.Held (fun p _ => (s.pc p).holds = true) s.lock

/-- What the writers keep. -/
structure Inv (s : State) : Prop where
  lock : LockHeld s
  numbered : Numbered s.master.events
  length : s.keys.length = s.master.events.length
  sorted : s.keys.Pairwise (· < ·)
  drawn : ∀ k ∈ s.keys, k < s.nextKey
  facts : ∀ p, (s.pc p).Facts s

lemma inv_init : Inv init where
  lock := Locks.held_free.congr fun _ _ => by simp [init, Pc.holds]
  numbered := numbered_nil
  length := rfl
  sorted := .nil
  drawn := fun _ h => nomatch h
  facts := fun _ => trivial

lemma goto_pc_self (p : ℕ) (pc : Pc) : (s.goto p pc).pc p = pc := Function.update_self ..

lemma goto_pc_of_ne {p q : ℕ} (pc : Pc) (h : q ≠ p) : (s.goto p pc).pc q = s.pc q :=
  Function.update_of_ne h ..

lemma Written.draw {s' : State} {written : List (ℕ × MasterEvent)} (h : Written s t written)
    (hmaster : s'.master = s.master) (hkeys : s'.keys = s.keys) (hnext : s.nextKey ≤ s'.nextKey) :
    Written s' t written where
  opened := by rw [hmaster]; exact h.opened
  events := by rw [hmaster]; exact h.events
  sorted := by rw [hkeys]; exact h.sorted
  drawn := by
    rw [hkeys]
    exact fun k hk => (h.drawn k hk).trans_le hnext

lemma Pc.Facts.draw {s' : State} {pc : Pc} (h : pc.Facts s) (hmaster : s'.master = s.master)
    (hkeys : s'.keys = s.keys) (hnext : s.nextKey ≤ s'.nextKey) : pc.Facts s' := by
  cases pc with
  | idle | locked => trivial
  | polled t =>
    show Opened s'.master t
    rw [hmaster]
    exact h
  | writing t base written => exact ⟨by rw [hmaster]; exact h.1, h.2.draw hmaster hkeys hnext⟩
  | saved t written => exact ⟨h.1, h.2.draw hmaster hkeys hnext⟩

/-- A step of session `p` that keeps the master and the keys. -/
lemma Inv.move {s' : State} {p : ℕ} {pc : Pc} (h : Inv s) (hlock : LockHeld s')
    (hmaster : s'.master = s.master) (hkeys : s'.keys = s.keys) (hnext : s.nextKey ≤ s'.nextKey)
    (hpcs : s'.pc = Function.update s.pc p pc) (hfacts : pc.Facts s') : Inv s' where
  lock := hlock
  numbered := by rw [hmaster]; exact h.numbered
  length := by rw [hmaster, hkeys]; exact h.length
  sorted := by rw [hkeys]; exact h.sorted
  drawn := by
    rw [hkeys]
    exact fun k hk => (h.drawn k hk).trans_le hnext
  facts := by
    intro q
    rw [hpcs]
    by_cases hq : q = p
    · rw [hq, Function.update_self]
      exact hfacts
    · rw [Function.update_of_ne hq]
      exact (h.facts q).draw hmaster hkeys hnext

lemma LockHeld.goto {p : ℕ} {pc : Pc} (h : LockHeld s) (hholds : pc.holds = (s.pc p).holds) :
    LockHeld (s.goto p pc) :=
  Locks.Held.moved (fun (pc : Pc) _ => pc.holds = true) h fun _ => by rw [hholds]

lemma LockHeld.rollback (h : LockHeld s) (p : ℕ) : LockHeld (s.rollback p) :=
  Locks.Held.moved_release (fun (pc : Pc) _ => pc.holds = true) h fun _ => Bool.false_ne_true

/-- While a session is in a transaction, no other one is. -/
lemma LockHeld.idle_of_ne {p q : ℕ} (h : LockHeld s) (hp : (s.pc p).holds = true) (hq : q ≠ p) :
    s.pc q = .idle := by
  cases hpc : s.pc q with
  | idle => rfl
  | _ => exact absurd (Locks.Held.unique h (r := ()) (by rw [hpc]; rfl) hp) hq

lemma LockHeld.idle_of_free (h : LockHeld s) (hfree : s.lock () = none) (q : ℕ) :
    s.pc q = .idle := by
  cases hpc : s.pc q with
  | idle => rfl
  | _ => exact absurd (by rw [hpc]; rfl) (Locks.Held.not_holds_of_free h hfree q)

/-- No event yet. -/
lemma Inv.written_nil (h : Inv s) (hopened : Opened s.master t) : Written s t [] where
  opened := hopened
  events := rfl
  sorted := by simpa using h.sorted
  drawn := by simpa using h.drawn

lemma Written.concat {base : ℕ} {written : List (ℕ × MasterEvent)} {spec : EventSpec}
    (h : Written s t written) (hbase : base = maxSequence s.master.events)
    (hspec : t.specs[written.length]? = some spec) {s' : State} (hmaster : s'.master = s.master)
    (hkeys : s'.keys = s.keys) (hnext : s'.nextKey = s.nextKey + 1) :
    Written s' t (written ++ [(s.nextKey, t.eventAt base written.length spec)]) where
  opened := by rw [hmaster]; exact h.opened
  events := by
    have hget : (t.events s.master)[written.length]?
        = some (t.eventAt base written.length spec) := by
      rw [getElem?_events, hspec, hbase]
      rfl
    rw [hmaster, List.map_append, h.events, List.length_append, List.length_singleton,
      List.take_add_one, hget]
    rfl
  sorted := by
    rw [hkeys, List.map_append, ← List.append_assoc]
    refine List.pairwise_append.mpr ⟨h.sorted, List.pairwise_singleton _ _, ?_⟩
    intro k hk k' hk'
    rw [List.mem_singleton.mp hk']
    exact h.drawn k hk
  drawn := by
    rw [hkeys, List.map_append, ← List.append_assoc, hnext]
    intro k hk
    rcases List.mem_append.mp hk with hk | hk
    · exact (h.drawn k hk).trans (Nat.lt_succ_self _)
    · rw [List.mem_singleton.mp hk]
      exact Nat.lt_succ_self _

lemma Written.all {written : List (ℕ × MasterEvent)} (h : Written s t written)
    (hall : written.length = t.specs.length) : written.map Prod.snd = t.events s.master := by
  rw [h.events, hall, ← length_events t s.master, List.take_length]

lemma inv_step (h : Inv s) (a : Action) : Inv (step s a) := by
  have heff := step_effect s a
  revert heff
  generalize step s a = s'
  intro heff
  cases heff with
  | stutter => exact h
  | ingest rows => exact { h with facts := fun q => (h.facts q).draw rfl rfl le_rfl }
  | lease token leaseUntil hfree =>
    refine { h with facts := fun q => ?_ }
    show (s.pc q).Facts _
    rw [h.lock.idle_of_free hfree q]
    trivial
  | draw =>
    exact { h with
      drawn := fun k hk => (h.drawn k hk).trans (Nat.lt_succ_self _)
      facts := fun q => (h.facts q).draw rfl rfl (Nat.le_succ _) }
  | begin_ p job hpc hfree =>
    refine h.move (p := p) ?_ rfl rfl le_rfl rfl
      trivial
    exact Locks.Held.moved_take (fun (pc : Pc) _ => pc.holds = true) h.lock hfree
      fun _ => by simp [Pc.holds]
  | rollback p =>
    exact h.move (p := p) (h.lock.rollback p) rfl rfl le_rfl rfl trivial
  | createPoll p job t hpc hopen =>
    exact h.move (p := p) (h.lock.goto (by rw [hpc]; rfl)) rfl rfl le_rfl
      rfl ⟨s.rows, job, hopen⟩
  | readSequence p t hpc =>
    have hp := h.facts p
    rw [hpc] at hp
    exact h.move (p := p) (h.lock.goto (by rw [hpc]; rfl)) rfl rfl le_rfl
      rfl
      ⟨rfl, (h.written_nil hp).draw rfl rfl le_rfl⟩
  | createEvent p t base written spec hpc hspec =>
    have hp := h.facts p
    rw [hpc] at hp
    obtain ⟨hbase, hwritten⟩ := hp
    exact h.move (p := p) (h.lock.goto (by rw [hpc]; rfl)) rfl rfl (Nat.le_succ _)
      rfl
      ⟨hbase, hwritten.concat hbase hspec rfl rfl rfl⟩
  | save p t base written hpc hall =>
    have hp := h.facts p
    rw [hpc] at hp
    exact h.move (p := p) (h.lock.goto (by rw [hpc]; rfl)) rfl rfl le_rfl
      rfl
      ⟨hall, hp.2.draw rfl rfl le_rfl⟩
  | commit p t written hpc =>
    have hp := h.facts p
    rw [hpc] at hp
    obtain ⟨hall, hwritten⟩ := hp
    have hevents := hwritten.all hall
    constructor
    · exact h.lock.rollback p
    · show Numbered (s.master.events ++ written.map Prod.snd)
      rw [hevents]
      exact h.numbered.append ..
    · show (s.keys ++ written.map Prod.fst).length = (s.master.events ++ written.map Prod.snd).length
      simp [h.length]
    · exact hwritten.sorted
    · exact hwritten.drawn
    · -- every other session is outside of a transaction
      intro q
      have hidle : (s.goto p .idle).pc q = .idle := by
        by_cases hq : q = p
        · rw [hq, goto_pc_self]
        · rw [goto_pc_of_ne _ hq, h.lock.idle_of_ne (by rw [hpc]; rfl) hq]
      show ((s.goto p .idle).pc q).Facts _
      rw [hidle]
      trivial

/-- **A step publishes a whole pass or nothing.** -/
lemma published_step (h : Inv s) (a : Action) : Published s.master (step s a).master := by
  have heff := step_effect s a
  revert heff
  generalize step s a = s'
  intro heff
  cases heff with
  | lease token leaseUntil hfree => exact .lease token leaseUntil
  | commit p t written hpc =>
    have hp := h.facts p
    rw [hpc] at hp
    obtain ⟨hall, hwritten⟩ := hp
    obtain ⟨rows, job, hopen⟩ := hwritten.opened
    show Published s.master (t.publish (written.map Prod.snd) s.master)
    rw [hwritten.all hall]
    exact published_of_openTxn hopen
  | _ => exact .nothing

/-! ### Runs -/

/-- The ledger of a state: its events carry the numbers from one on in the order of their keys,
which is the order of their creation. -/
structure Ordered (s : State) : Prop where
  numbered : Numbered s.master.events
  length : s.keys.length = s.master.events.length
  created : s.keys.Pairwise (· < ·)

/-- **The ledger is numbered, and every pass is published as a whole.**  In every run of recordings
and projections, any of which may fail at any point, the events of every state carry the numbers
from one on in the order of their creation, and every step publishes nothing, a change of the lease,
or one pass with its poll, its watermark and all of its events. -/
theorem ordered_and_published (as : List Action) :
    Ordered (run step init as) ∧
      ∀ pre a post, as = pre ++ a :: post →
        Published (run step init pre).master (run step init (pre ++ [a])).master := by
  have hinv : ∀ as, Inv (run step init as) :=
    fun as => run_invariant (P := Inv) (fun _ a hs => inv_step hs a) inv_init as
  refine ⟨⟨(hinv as).numbered, (hinv as).length, (hinv as).sorted⟩, ?_⟩
  intro pre a post _
  rw [run_concat]
  exact published_step (hinv pre) a

end LedgerWriters
end GuvFX
