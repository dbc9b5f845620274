/-
# Observation of a master

A pass over a master claims the observation lease, reads the open positions from the bridge, and
records the observation: one poll with its snapshot, and the events that lead from the previous
poll to it, numbered after the last event of the master.  A claim, a record and a release are
transactions under the row lock of the master, so each of them is one function on its row.
-/
import GuvFX.Lib.Decimal
import GuvFX.TradeCopier.Reconcile

namespace GuvFX
namespace Observer

open Decimal Diff
open Reconcile (MasterReadResult)

/-! ### Stored values -/

def storeVolume (v : ℚ) : ℚ := quantize 3 v

/-- A protective level in the column of a snapshot: a level of zero is no level. -/
def levelToDecimal : Option ℚ → Option ℚ
  | none => none
  | some v => if |v| ≤ 1 / 1000000000 then none else some (quantize 10 v)

/-- A protective level in the column of an event. -/
def numToDecimal (v : Option ℚ) : Option ℚ := v.map (quantize 10)

def storePosition (p : ObservedPosition) : ObservedPosition :=
  { p with
    volume := storeVolume p.volume
    sl := levelToDecimal p.sl
    tp := levelToDecimal p.tp
    comment := String.ofList (p.comment.toList.take 128) }

def snapshotFits (p : ObservedPosition) : Bool :=
  (-2 ^ 63 ≤ p.ticket ∧ p.ticket < 2 ^ 63) ∧ p.symbol.length ≤ 64 ∧ p.side.length ≤ 8 ∧
    |storeVolume p.volume| < 10 ^ 9 ∧
    (levelToDecimal p.sl).all (fun v => |v| < 10 ^ 14) ∧
    (levelToDecimal p.tp).all (fun v => |v| < 10 ^ 14)

@[simp] lemma storePosition_ticket (p : ObservedPosition) :
    (storePosition p).ticket = p.ticket := rfl

@[simp] lemma storePosition_symbol (p : ObservedPosition) :
    (storePosition p).symbol = p.symbol := rfl

@[simp] lemma storePosition_side (p : ObservedPosition) : (storePosition p).side = p.side := rfl

@[simp] lemma storePosition_volume (p : ObservedPosition) :
    (storePosition p).volume = storeVolume p.volume := rfl

@[simp] lemma storePosition_sl (p : ObservedPosition) :
    (storePosition p).sl = levelToDecimal p.sl := rfl

@[simp] lemma storePosition_tp (p : ObservedPosition) :
    (storePosition p).tp = levelToDecimal p.tp := rfl

lemma map_ticket_storePosition (ps : List ObservedPosition) :
    (ps.map storePosition).map (·.ticket) = ps.map (·.ticket) := by
  rw [List.map_map]
  rfl

lemma index_map_storePosition (ps : List ObservedPosition) (t : ℤ) :
    index (ps.map storePosition) t = (index ps t).map storePosition := by
  rw [index, ← List.map_reverse, List.find?_map]
  rfl

@[simp] lemma storeVolume_storeVolume (v : ℚ) : storeVolume (storeVolume v) = storeVolume v :=
  quantize_of_onGrid (onGrid_quantize 3 v)

lemma levelToDecimal_levelToDecimal (v : Option ℚ) :
    levelToDecimal (levelToDecimal v) = none ∨
      levelToDecimal (levelToDecimal v) = levelToDecimal v := by
  cases v with
  | none => exact Or.inl rfl
  | some x =>
    simp only [levelToDecimal]
    split_ifs with hx
    · exact Or.inl rfl
    · by_cases hq : |quantize 10 x| ≤ 1 / 1000000000
      · exact Or.inl (if_pos hq)
      · refine Or.inr ((if_neg hq).trans ?_)
        rw [quantize_of_onGrid (onGrid_quantize 10 x)]

lemma storePosition_thrice (p : ObservedPosition) :
    storePosition (storePosition (storePosition p)) = storePosition (storePosition p) := by
  have hlevel : ∀ v : Option ℚ, levelToDecimal (levelToDecimal (levelToDecimal v))
      = levelToDecimal (levelToDecimal v) := by
    intro v
    rcases levelToDecimal_levelToDecimal v with hnone | hsame
    · rw [hnone]
      rfl
    · rw [hsame, hsame]
  simp [storePosition, hlevel, List.take_take]

/-- What has been stored can be stored again. -/
lemma snapshotFits_storePosition {p : ObservedPosition} (h : snapshotFits p = true) :
    snapshotFits (storePosition p) = true := by
  have hlevel : ∀ v : Option ℚ, (levelToDecimal v).all (fun x => |x| < 10 ^ 14) = true →
      (levelToDecimal (levelToDecimal v)).all (fun x => |x| < 10 ^ 14) = true := by
    intro v hv
    rcases levelToDecimal_levelToDecimal v with hnone | hsame
    · rw [hnone]
      rfl
    · rw [hsame]
      exact hv
  simp only [snapshotFits, decide_eq_true_eq] at h
  obtain ⟨hticket, hsymbol, hside, hvolume, hsl, htp⟩ := h
  simp only [snapshotFits, decide_eq_true_eq, storePosition_ticket, storePosition_symbol,
    storePosition_side, storePosition_volume, storePosition_sl, storePosition_tp,
    storeVolume_storeVolume]
  exact ⟨hticket, hsymbol, hside, hvolume, hlevel _ hsl, hlevel _ htp⟩

/-- One observation of the open positions of a master, as it is stored. -/
structure Poll where
  readAt : Option Time
  positions : List ObservedPosition
  /-- A ticket occurs only once in a poll. -/
  nodup : (positions.map (·.ticket)).Nodup
  fits : ∀ p ∈ positions, snapshotFits p = true
  deriving DecidableEq

/-- The errors that roll back the recording of an observation. -/
inductive DbError where
  | dataError
  | integrityError
  deriving DecidableEq, Repr

def storeSnapshot (readAt : Time) (positions : List ObservedPosition) : Except DbError Poll :=
  if hfits : ∀ p ∈ positions, snapshotFits p = true then
    if hnodup : (positions.map (·.ticket)).Nodup then
      .ok {
        readAt := some readAt
        positions := positions.map storePosition
        nodup := by rw [map_ticket_storePosition]; exact hnodup
        fits := by
          intro p hp
          obtain ⟨q, hq, rfl⟩ := List.mem_map.mp hp
          exact snapshotFits_storePosition (hfits q hq) }
    else .error .integrityError
  else .error .dataError

lemma storeSnapshot_eq_ok {readAt : Time} {positions : List ObservedPosition} {poll : Poll}
    (h : storeSnapshot readAt positions = .ok poll) :
    (positions.map (·.ticket)).Nodup ∧ poll.readAt = some readAt ∧
      poll.positions = positions.map storePosition := by
  simp only [storeSnapshot] at h
  split_ifs at h with hfits hnodup
  obtain rfl := Except.ok.inj h
  exact ⟨hnodup, rfl, rfl⟩

lemma exists_storeSnapshot {positions : List ObservedPosition} (readAt : Time)
    (hfits : ∀ p ∈ positions, snapshotFits p = true)
    (hnodup : (positions.map (·.ticket)).Nodup) :
    ∃ poll, storeSnapshot readAt positions = .ok poll := by
  rw [storeSnapshot, dif_pos hfits, dif_pos hnodup]
  exact ⟨_, rfl⟩

/-- The ledger row of a detected change.  Its columns are as wide as those of a snapshot row, so
that a change between two stored snapshots fits. -/
def storeSpec (spec : EventSpec) : EventSpec :=
  { spec with
    volumeBefore := storeVolume spec.volumeBefore
    volumeAfter := storeVolume spec.volumeAfter
    prevSl := numToDecimal spec.prevSl
    newSl := numToDecimal spec.newSl
    prevTp := numToDecimal spec.prevTp
    newTp := numToDecimal spec.newTp }

/-! ### The row of a master -/

/-- Where a change was detected. -/
inductive DetectionSource where
  | poll
  | event
  deriving DecidableEq, Repr

structure MasterEvent where
  sequence : ℕ
  spec : EventSpec
  source : DetectionSource
  brokerEventTime : Option Time
  observedAt : Time
  deriving DecidableEq, Repr

structure Master where
  lastPoll : Option Poll
  /-- The ledger, oldest event first. -/
  events : List MasterEvent
  observationLeaseToken : String
  observationLeaseUntil : Option Time
  lastProjectedIngestId : ℕ
  deriving DecidableEq

def Master.new : Master where
  lastPoll := none
  events := []
  observationLeaseToken := ""
  observationLeaseUntil := none
  lastProjectedIngestId := 0

/-! ### The lease -/

/-- Claim the lease for `token`, unless a lease that has not expired is held. -/
def claimObservationLease (now : Time) (token : String) (seconds : ℕ) (m : Master) :
    Option Master :=
  if m.observationLeaseUntil.any fun leaseUntil => now < leaseUntil then none
  else some { m with
    observationLeaseToken := token
    observationLeaseUntil := some (now + seconds) }

/-- Release the lease if it is still that of `token`. -/
def releaseObservationLease (token : String) (m : Master) : Master :=
  if m.observationLeaseToken = token then
    { m with observationLeaseToken := "", observationLeaseUntil := none }
  else m

/-! ### The ledger -/

/-- The highest sequence number of the ledger, zero when it is empty. -/
def maxSequence (events : List MasterEvent) : ℕ := (events.map (·.sequence)).foldl max 0

/-- The ledger rows of the detected changes, numbered from `base + 1`. -/
def ledgerRows (base : ℕ) (source : DetectionSource)
    (brokerEventTime : EventSpec → Option Time) (now : Time) (specs : List EventSpec) :
    List MasterEvent :=
  (specs.zipIdx (base + 1)).map fun e =>
    { sequence := e.2, spec := storeSpec e.1, source := source
      brokerEventTime := brokerEventTime e.1, observedAt := now }

inductive RecordOutcome where
  | leaseLost
  | staleDiscarded
  | recorded (events : ℕ) (firstPoll : Bool)
  deriving DecidableEq, Repr

/-- Is the lease of `token` lost at the time `now`? -/
def leaseLost (now : Time) (token : String) (m : Master) : Bool :=
  m.observationLeaseToken ≠ token ∨ ¬ m.observationLeaseUntil.any fun leaseUntil => now < leaseUntil

/-- Is a read no newer than the poll the next difference is taken against? -/
def staleRead (result : MasterReadResult) (m : Master) : Bool :=
  match m.lastPoll, result.readAt with
  | some prev, some readAt => prev.readAt.any fun prevReadAt => readAt ≤ prevReadAt
  | _, _ => false

/-- The changes that an observation shows: none at the first poll, which is only a baseline. -/
def observedChanges (m : Master) (positions : List ObservedPosition) : List EventSpec :=
  match m.lastPoll with
  | none => []
  | some prev => diffPositions prev.positions positions

/-- Record one observation and its events.  An error rolls the whole transaction back. -/
def recordObservation (now : Time) (result : MasterReadResult) (leaseToken : Option String)
    (m : Master) : Except DbError (Master × RecordOutcome) :=
  if leaseToken.any fun token => leaseLost now token m then .ok (m, .leaseLost)
  else if staleRead result m then .ok (m, .staleDiscarded)
  else
    match storeSnapshot (result.readAt.getD now) result.positions with
    | .error err => .error err
    | .ok poll =>
      let specs := observedChanges m result.positions
      let rows := ledgerRows (maxSequence m.events) .poll (fun _ => none) now specs
      .ok ({ m with lastPoll := some poll, events := m.events ++ rows },
        .recorded rows.length m.lastPoll.isNone)

/-! ### What the transactions do -/

variable {m m' : Master} {now : Time} {token : String} {seconds : ℕ} {result : MasterReadResult}
  {leaseToken : Option String}

lemma claimObservationLease_cases (h : claimObservationLease now token seconds m = some m') :
    (∀ leaseUntil, m.observationLeaseUntil = some leaseUntil → leaseUntil ≤ now) ∧
      m' = { m with observationLeaseToken := token, observationLeaseUntil := some (now + seconds) } := by
  simp only [claimObservationLease] at h
  split_ifs at h with hheld
  refine ⟨fun leaseUntil hl => ?_, (Option.some.inj h).symm⟩
  rw [hl] at hheld
  simpa using hheld

def recordedMaster (now : Time) (result : MasterReadResult) (poll : Poll) (m : Master) : Master :=
  { m with
    lastPoll := some poll
    events := m.events ++ ledgerRows (maxSequence m.events) .poll (fun _ => none) now
      (observedChanges m result.positions) }

/-- **What a recording does.**  Either it discards the read and writes nothing, or the lease and
the order of the reads allow it and it writes the poll with its events. -/
lemma recordObservation_cases {outcome : RecordOutcome}
    (h : recordObservation now result leaseToken m = .ok (m', outcome)) :
    (m' = m ∧ (outcome = .leaseLost ∨ outcome = .staleDiscarded)) ∨
      ((∀ token, leaseToken = some token → leaseLost now token m = false) ∧
        staleRead result m = false ∧
        ∃ poll, storeSnapshot (result.readAt.getD now) result.positions = .ok poll ∧
          m' = recordedMaster now result poll m ∧
          outcome = .recorded (observedChanges m result.positions).length m.lastPoll.isNone) := by
  simp only [recordObservation] at h
  split_ifs at h with hlease hstale
  · obtain ⟨rfl, rfl⟩ := Prod.mk.inj (Except.ok.inj h)
    exact Or.inl ⟨rfl, Or.inl rfl⟩
  · obtain ⟨rfl, rfl⟩ := Prod.mk.inj (Except.ok.inj h)
    exact Or.inl ⟨rfl, Or.inr rfl⟩
  · cases hstore : storeSnapshot (result.readAt.getD now) result.positions with
    | error err => simp [hstore] at h
    | ok poll =>
      rw [hstore] at h
      obtain ⟨rfl, rfl⟩ := Prod.mk.inj (Except.ok.inj h)
      refine Or.inr ⟨?_, by simpa using hstale, poll, rfl, rfl, by simp [ledgerRows]⟩
      intro token htoken
      rw [htoken] at hlease
      simpa using hlease

lemma recordObservation_lease {outcome : RecordOutcome}
    (h : recordObservation now result leaseToken m = .ok (m', outcome)) :
    m'.observationLeaseToken = m.observationLeaseToken := by
  rcases recordObservation_cases h with ⟨rfl, -⟩ | ⟨-, -, poll, -, rfl, -⟩ <;> rfl

end Observer
end GuvFX
