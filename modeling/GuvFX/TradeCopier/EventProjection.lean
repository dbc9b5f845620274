/-
# Promotion of ingested revisions into the ledger

The fast path stores the revisions it accepts as rows with growing ids.  A projection pass reads the
rows above the watermark of the master, folds them over the revisions consumed before, lays the
winners over the baseline, and appends the difference to the ledger; it shares the baseline and
the numbering with the polls.  The pass is one transaction under the row lock of the master.
-/
import GuvFX.TradeCopier.Ledger
import GuvFX.TradeCopier.Revisions

namespace GuvFX
namespace EventProjection

open Decimal Diff Latest Observer Revisions

/-! ### Ingested rows -/

def columnsFit (r : PositionRevision) : Bool :=
  (-2 ^ 63 ≤ r.ticket ∧ r.ticket < 2 ^ 63) ∧ (-2 ^ 63 ≤ r.revision ∧ r.revision < 2 ^ 63) ∧
    r.symbol.length ≤ 64 ∧ r.side.length ≤ 8 ∧ |r.volume| < 10 ^ 9 ∧
    r.originalVolume.all (fun v => |v| < 10 ^ 9) ∧
    [r.sl, r.tp, r.priceOpen].all fun price => price.all fun v => |v| < 10 ^ 14

def storeRevision (r : PositionRevision) : PositionRevision :=
  { r with
    symbol := String.ofList (r.symbol.toList.take 64)
    side := String.ofList (r.side.toList.take 8)
    volume := storeVolume r.volume
    originalVolume := r.originalVolume.map storeVolume
    sl := numToDecimal r.sl
    tp := numToDecimal r.tp
    priceOpen := numToDecimal r.priceOpen }

lemma storeRevision_storeRevision (r : PositionRevision) :
    storeRevision (storeRevision r) = storeRevision r := by
  have hprice : ∀ v : Option ℚ, numToDecimal (numToDecimal v) = numToDecimal v := by
    intro v
    cases v with
    | none => rfl
    | some x => exact congrArg some (quantize_of_onGrid (onGrid_quantize 10 x))
  have hvolume : ∀ v : Option ℚ, (v.map storeVolume).map storeVolume = v.map storeVolume := by
    intro v
    cases v with
    | none => rfl
    | some x => exact congrArg some (storeVolume_storeVolume x)
  simp [storeRevision, hprice, hvolume, List.take_take]

structure IngestedRevision where
  id : ℕ
  revision : PositionRevision
  fits : columnsFit revision = true
  /-- The values are those that the columns hold. -/
  stored : storeRevision revision = revision
  deriving DecidableEq

/-- Insert the row of a revision under the id `id`, next to the rows that are there. -/
def insertRevision (id : ℕ) (rows : List IngestedRevision) (r : PositionRevision) :
    Except DbError IngestedRevision :=
  if h : columnsFit (storeRevision r) = true then
    if rows.any fun row =>
        row.revision.ticket = r.ticket ∧ row.revision.revision = r.revision then
      .error .integrityError
    else .ok
      { id, revision := storeRevision r, fits := h, stored := storeRevision_storeRevision r }
  else .error .dataError

/-! ### A pass -/

/-- The rows that a pass has not consumed yet, in the order of their ids. -/
def newRows (watermark : ℕ) (rows : List IngestedRevision) : List IngestedRevision :=
  (rows.filter fun row => watermark < row.id).insertionSort fun row row' => row.id ≤ row'.id

/-- The highest revision of each ticket among the rows consumed before. -/
def priorApplied (watermark : ℕ) (rows : List IngestedRevision) (t : ℤ) : Option ℤ :=
  ((rows.filter fun row => row.id ≤ watermark ∧ row.revision.ticket = t).map
    (·.revision.revision)).max?

def projectionWinners (new : List IngestedRevision) (fold : FoldResult) (t : ℤ) :
    Option PositionRevision :=
  (new.map (·.revision)).reverse.find? fun rev =>
    rev.structurallyValid ∧ rev.ticket = t ∧ fold.appliedRevision t = some rev.revision

def overlayAt (winners : ℤ → Option PositionRevision) (baseline : List ObservedPosition) (t : ℤ) :
    Option ObservedPosition :=
  match winners t with
  | some rev => rev.toObservedPosition
  | none => index baseline t

/-- The positions after the winners are laid over the baseline: closed ones are removed, open ones
are inserted or updated, and the others are carried over. -/
def overlay (winners : ℤ → Option PositionRevision) (new : List IngestedRevision)
    (baseline : List ObservedPosition) : List ObservedPosition :=
  ((baseline.map (·.ticket) ++ new.map (·.revision.ticket)).dedup).filterMap
    (overlayAt winners baseline)

def admissibilityReference (spec : EventSpec) : Option PositionRevision → Option Time
  | none => none
  | some win =>
    if spec.eventType = .open_ then win.openTime.or win.brokerEventTime
    else win.brokerEventTime

/-- The snapshot that the next difference is taken against. -/
def baselineOf (m : Master) : List ObservedPosition :=
  match m.lastPoll with
  | some poll => poll.positions
  | none => []

/-- What a pass answers. -/
structure ProjectionOutcome where
  promotedEvents : ℕ
  watermark : ℕ
  advanced : Bool
  rejected : ℕ
  deriving DecidableEq, Repr

def projectionFold (watermark : ℕ) (rows : List IngestedRevision) : FoldResult :=
  foldRevisions ((newRows watermark rows).map (·.revision)) (priorApplied watermark rows)

def passWinners (watermark : ℕ) (rows : List IngestedRevision) : ℤ → Option PositionRevision :=
  projectionWinners (newRows watermark rows) (projectionFold watermark rows)

def passOverlay (rows : List IngestedRevision) (m : Master) : List ObservedPosition :=
  overlay (passWinners m.lastProjectedIngestId rows) (newRows m.lastProjectedIngestId rows)
    (baselineOf m)

def passEvents (now : Time) (rows : List IngestedRevision) (m : Master) : List MasterEvent :=
  ledgerRows (maxSequence m.events) .event
    (fun spec => admissibilityReference spec (passWinners m.lastProjectedIngestId rows spec.ticket))
    now (diffPositions (baselineOf m) (passOverlay rows m))

def projectMasterEvents (now : Time) (rows : List IngestedRevision) (m : Master) :
    Except DbError (Master × ProjectionOutcome) :=
  let watermark := m.lastProjectedIngestId
  let new := newRows watermark rows
  if new = [] then
    .ok (m, { promotedEvents := 0, watermark, advanced := false, rejected := 0 })
  else
    let maxId := (new.map (·.id)).foldl max 0
    match storeSnapshot now (passOverlay rows m) with
    | .error err => .error err
    | .ok poll =>
      let events := passEvents now rows m
      .ok ({ m with
        lastPoll := some poll
        events := m.events ++ events
        lastProjectedIngestId := maxId },
        { promotedEvents := events.length, watermark := maxId, advanced := true
          rejected := (projectionFold watermark rows).rejected.length })

/-! ### The rows of a pass -/

variable {rows : List IngestedRevision} {watermark : ℕ} {t : ℤ} {r : PositionRevision}
  {row : IngestedRevision}

lemma mem_newRows : row ∈ newRows watermark rows ↔ row ∈ rows ∧ watermark < row.id := by
  simp [newRows, List.mem_insertionSort]

lemma newRows_eq_nil_iff : newRows watermark rows = [] ↔ ∀ row ∈ rows, row.id ≤ watermark := by
  rw [List.eq_nil_iff_forall_not_mem]
  simp [mem_newRows]

lemma stale_priorApplied {n : ℤ} :
    stale (priorApplied watermark rows t) n = true ↔
      ∃ row ∈ rows, row.id ≤ watermark ∧ row.revision.ticket = t ∧ n ≤ row.revision.revision := by
  set marks := (rows.filter fun row => row.id ≤ watermark ∧ row.revision.ticket = t).map
    (·.revision.revision) with hmarks
  have hmem : ∀ k, k ∈ marks ↔ ∃ row ∈ rows, row.id ≤ watermark ∧ row.revision.ticket = t ∧
      row.revision.revision = k := by
    intro k
    simp [hmarks, and_assoc]
  rw [priorApplied, ← hmarks]
  constructor
  · intro h
    cases hmax : marks.max? with
    | none => simp [hmax, stale] at h
    | some k =>
      rw [hmax, stale_some] at h
      obtain ⟨row, hrow, hid, hticket, rfl⟩ := (hmem k).mp (List.max?_mem hmax)
      exact ⟨row, hrow, hid, hticket, h⟩
  · rintro ⟨row, hrow, hid, hticket, hle⟩
    have hk : row.revision.revision ∈ marks := (hmem _).mpr ⟨row, hrow, hid, hticket, rfl⟩
    cases hmax : marks.max? with
    | none =>
      rw [List.max?_eq_none_iff.mp hmax] at hk
      cases hk
    | some k =>
      rw [stale_some]
      exact hle.trans ((List.max?_le_iff hmax).mp le_rfl _ hk)

def DistinctRevisions (rows : List IngestedRevision) : Prop :=
  ∀ a ∈ rows, ∀ b ∈ rows, a.revision.ticket = b.revision.ticket →
    a.revision.revision = b.revision.revision → a = b

/-- The well-formed revisions of the ticket `t` among the rows that the pass consumes. -/
def candidates (watermark : ℕ) (rows : List IngestedRevision) (t : ℤ) : List PositionRevision :=
  ofTicket t ((newRows watermark rows).map (·.revision))

lemma mem_candidates : r ∈ candidates watermark rows t ↔
    ∃ row ∈ rows, watermark < row.id ∧ row.revision = r ∧ r.structurallyValid = true ∧
      r.ticket = t := by
  rw [candidates, mem_ofTicket, List.mem_map]
  constructor
  · rintro ⟨⟨row, hrow, rfl⟩, hvalid, hticket⟩
    obtain ⟨hmem, hid⟩ := mem_newRows.mp hrow
    exact ⟨row, hmem, hid, rfl, hvalid, hticket⟩
  · rintro ⟨row, hmem, hid, rfl, hvalid, hticket⟩
    exact ⟨⟨row, mem_newRows.mpr ⟨hmem, hid⟩, rfl⟩, hvalid, hticket⟩

lemma projectionFold_applied : (projectionFold watermark rows).appliedRevision t
    = mark (·.revision) (priorApplied watermark rows t)
        (latest (·.revision) (priorApplied watermark rows t) (candidates watermark rows t)) := by
  rw [projectionFold, foldRevisions]
  simp only [foldWinners_winner, candidates, mark]
  cases latest (·.revision) (priorApplied watermark rows t)
    (ofTicket t ((newRows watermark rows).map (·.revision))) <;> rfl

/-- **The winner of a ticket** is the newest of the revisions the pass consumes, if it is above all
revisions consumed before. -/
theorem passWinners_eq (hrows : DistinctRevisions rows) (t : ℤ) :
    passWinners watermark rows t
      = latest (·.revision) (priorApplied watermark rows t) (candidates watermark rows t) := by
  have hfind : passWinners watermark rows t
      = ((newRows watermark rows).map (·.revision)).reverse.find? fun rev =>
          rev.structurallyValid ∧ rev.ticket = t ∧
            (projectionFold watermark rows).appliedRevision t = some rev.revision := rfl
  rw [projectionFold_applied] at hfind
  have hmem : ∀ rev, rev ∈ ((newRows watermark rows).map (·.revision)).reverse →
      rev.structurallyValid = true → rev.ticket = t → rev ∈ candidates watermark rows t := by
    intro rev hrev hvalid hticket
    exact mem_ofTicket.mpr ⟨List.mem_reverse.mp hrev, hvalid, hticket⟩
  cases hbest : latest (·.revision) (priorApplied watermark rows t)
      (candidates watermark rows t) with
  | none =>
    -- a new row with the number of a consumed one is not possible
    rw [hbest] at hfind
    rw [hfind, List.find?_eq_none]
    intro rev hrev
    simp only [decide_eq_true_eq, not_and]
    intro hvalid hticket hmark
    obtain ⟨row, hrow, hid, hrev', -, -⟩ := mem_candidates.mp (hmem rev hrev hvalid hticket)
    have hprior : priorApplied watermark rows t = some rev.revision := by
      simpa [mark] using hmark
    have hstale : stale (priorApplied watermark rows t) rev.revision = true := by
      rw [hprior, stale_some]
    obtain ⟨old, hold, holdid, holdticket, hle⟩ := stale_priorApplied.mp hstale
    have hmax : old.revision.revision ≤ rev.revision := by
      have holdstale : stale (priorApplied watermark rows t) old.revision.revision = true :=
        stale_priorApplied.mpr ⟨old, hold, holdid, holdticket, le_rfl⟩
      rwa [hprior, stale_some] at holdstale
    have heq : row = old := by
      refine hrows row hrow old hold ?_ ?_
      · rw [hrev', hticket, holdticket]
      · rw [hrev']
        exact le_antisymm hle hmax
    rw [heq] at hid
    omega
  | some w =>
    have hw : IsLatest (·.revision) (priorApplied watermark rows t)
        (candidates watermark rows t) (some w) := by
      rw [← hbest]
      exact isLatest_latest _ _ _
    obtain ⟨row, hrow, hid, hwrow, hvalid, hticket⟩ := mem_candidates.mp hw.1
    rw [hbest] at hfind
    cases hfound : passWinners watermark rows t with
    | none =>
      rw [hfound] at hfind
      have hnone := List.find?_eq_none.mp hfind.symm w (by
        rw [List.mem_reverse]
        exact (mem_ofTicket.mp hw.1).1)
      simp [hvalid, hticket, mark] at hnone
    | some rev =>
      rw [hfound] at hfind
      have hrev := List.find?_some hfind.symm
      simp only [decide_eq_true_eq, mark, Option.map_some, Option.some_or,
        Option.some.injEq] at hrev
      obtain ⟨hrevvalid, hrevticket, hnumber⟩ := hrev
      have hrevmem := hmem rev (List.mem_of_find?_eq_some hfind.symm) hrevvalid hrevticket
      obtain ⟨row', hrow', -, hrevrow, -, -⟩ := mem_candidates.mp hrevmem
      have heq : row = row' := by
        refine hrows row hrow row' hrow' ?_ ?_
        · rw [hwrow, hrevrow, hticket, hrevticket]
        · rw [hwrow, hrevrow, hnumber]
      rw [← hwrow, ← hrevrow, heq]

lemma of_passWinners (h : passWinners watermark rows t = some r) :
    r.structurallyValid = true ∧ r.ticket = t ∧ ∃ row ∈ rows, watermark < row.id ∧
      row.revision = r := by
  have hfound := List.find?_some h
  simp only [decide_eq_true_eq] at hfound
  have hmem := List.mem_reverse.mp (List.mem_of_find?_eq_some h)
  obtain ⟨row, hrow, rfl⟩ := List.mem_map.mp hmem
  obtain ⟨hrow, hid⟩ := mem_newRows.mp hrow
  exact ⟨hfound.1, hfound.2.1, row, hrow, hid, rfl⟩

/-- A pass applies the revision `r`: it is well formed and new, no other new one of its ticket is
above it, and all those consumed before are below it. -/
structure Applies (watermark : ℕ) (rows : List IngestedRevision) (r : PositionRevision) : Prop where
  row : ∃ row ∈ rows, watermark < row.id ∧ row.revision = r
  valid : r.structurallyValid = true
  newest : ∀ row ∈ rows, watermark < row.id → row.revision.ticket = r.ticket →
    row.revision.structurallyValid = true → row.revision.revision ≤ r.revision
  above : ∀ row ∈ rows, row.id ≤ watermark → row.revision.ticket = r.ticket →
    row.revision.revision < r.revision

lemma applies_iff (hrows : DistinctRevisions rows) :
    Applies watermark rows r ↔ passWinners watermark rows r.ticket = some r := by
  have hinj : ∀ a ∈ candidates watermark rows r.ticket,
      ∀ b ∈ candidates watermark rows r.ticket, a.revision = b.revision → a = b := by
    intro a ha b hb hab
    obtain ⟨rowa, hrowa, -, rfl, -, hta⟩ := mem_candidates.mp ha
    obtain ⟨rowb, hrowb, -, rfl, -, htb⟩ := mem_candidates.mp hb
    rw [hrows rowa hrowa rowb hrowb (hta.trans htb.symm) hab]
  rw [passWinners_eq hrows, latest_eq_iff hinj]
  constructor
  · rintro ⟨⟨row, hrow, hid, hrev⟩, hvalid, hnewest, habove⟩
    refine ⟨mem_candidates.mpr ⟨row, hrow, hid, hrev, hvalid, rfl⟩, ?_, ?_⟩
    · rw [Bool.eq_false_iff, Ne, stale_priorApplied]
      rintro ⟨old, hold, holdid, hticket, hle⟩
      exact absurd hle (not_le.mpr (habove old hold holdid hticket))
    · intro a ha
      obtain ⟨row', hrow', hid', rfl, hvalid', hticket⟩ := mem_candidates.mp ha
      exact hnewest row' hrow' hid' hticket hvalid'
  · rintro ⟨hmem, hfloor, hmax⟩
    obtain ⟨row, hrow, hid, hrev, hvalid, -⟩ := mem_candidates.mp hmem
    refine ⟨⟨row, hrow, hid, hrev⟩, hvalid, ?_, ?_⟩
    · intro row' hrow' hid' hticket hvalid'
      exact hmax _ (mem_candidates.mpr ⟨row', hrow', hid', rfl, hvalid', hticket⟩)
    · intro old hold holdid hticket
      rw [Bool.eq_false_iff, Ne, stale_priorApplied] at hfloor
      rw [← not_le]
      exact fun hle => hfloor ⟨old, hold, holdid, hticket, hle⟩

/-! ### The positions of a pass -/

variable {m m' : Master} {now : Time}

lemma overlayAt_of_some {winners : ℤ → Option PositionRevision}
    (h : winners t = some r) (baseline : List ObservedPosition) :
    overlayAt winners baseline t = r.toObservedPosition := by
  rw [overlayAt, h]

lemma overlayAt_of_none {winners : ℤ → Option PositionRevision}
    (h : winners t = none) (baseline : List ObservedPosition) :
    overlayAt winners baseline t = index baseline t := by
  rw [overlayAt, h]

lemma ticket_of_overlayAt {p : ObservedPosition}
    (h : overlayAt (passWinners watermark rows) (baselineOf m) t = some p) : p.ticket = t := by
  cases hwin : passWinners watermark rows t with
  | none =>
    rw [overlayAt_of_none hwin] at h
    exact ticket_of_index h
  | some rev =>
    rw [overlayAt_of_some hwin] at h
    rw [ticket_of_toObservedPosition h, (of_passWinners hwin).2.1]

lemma nodup_passOverlay : ((passOverlay rows m).map (·.ticket)).Nodup :=
  nodup_filterMap (fun _ _ => ticket_of_overlayAt) (List.nodup_dedup _)

/-- **The position of a ticket after a pass.** -/
theorem index_passOverlay (t : ℤ) : index (passOverlay rows m) t
    = overlayAt (passWinners m.lastProjectedIngestId rows) (baselineOf m) t := by
  refine index_filterMap (fun _ _ => ticket_of_overlayAt) (List.nodup_dedup _) fun p hp => ?_
  rw [List.mem_dedup, List.mem_append, List.mem_map, List.mem_map]
  cases hwin : passWinners m.lastProjectedIngestId rows t with
  | none =>
    rw [overlayAt_of_none hwin] at hp
    exact Or.inl ⟨p, mem_of_index hp, ticket_of_index hp⟩
  | some rev =>
    obtain ⟨-, hrev, row, hrow, hid, rfl⟩ := of_passWinners hwin
    exact Or.inr ⟨row, mem_newRows.mpr ⟨hrow, hid⟩, hrev⟩

lemma snapshotFits_of_row {p : ObservedPosition} (hvalid : row.revision.structurallyValid = true)
    (hp : row.revision.toObservedPosition = some p) : snapshotFits p = true := by
  have hopen : row.revision.closed = false := by
    simp only [PositionRevision.toObservedPosition] at hp
    split_ifs at hp with hclosed
    simpa using hclosed
  obtain ⟨hpos, hmax, hsl, htp⟩ := bounds_of_valid hvalid hopen
  have hfits := row.fits
  simp only [columnsFit, decide_eq_true_eq] at hfits
  obtain ⟨hticket, -, hsymbol, hside, -⟩ := hfits
  rw [PositionRevision.toObservedPosition, hopen] at hp
  obtain rfl := Option.some.inj hp
  have hvolume : |storeVolume row.revision.volume| < 10 ^ 9 := by
    have hgrid : OnGrid 3 maxVolume := ⟨1000000000, by norm_num [maxVolume]⟩
    have hle : |storeVolume row.revision.volume - 0| ≤ maxVolume := by
      refine abs_quantize_sub_le_of_onGrid onGrid_zero hgrid ?_
      rw [sub_zero, abs_of_pos hpos]
      exact hmax
    rw [sub_zero] at hle
    exact hle.trans_lt (by norm_num [maxVolume])
  have hlevel : ∀ v : Option ℚ, withinRange maxPrice v = true →
      (levelToDecimal v).all (fun x => |x| < 10 ^ 14) = true := by
    intro v hv
    cases v with
    | none => rfl
    | some x =>
      have hx : |x - 0| ≤ maxPrice := by simpa [withinRange] using hv
      simp only [levelToDecimal]
      split_ifs
      · rfl
      · have hgrid : OnGrid 10 maxPrice := ⟨100000000000000000, by norm_num [maxPrice]⟩
        have hle := abs_quantize_sub_le_of_onGrid onGrid_zero hgrid hx
        rw [sub_zero] at hle
        have hlt : |quantize 10 x| < 10 ^ 14 := hle.trans_lt (by norm_num [maxPrice])
        simpa using hlt
  simp only [snapshotFits, decide_eq_true_eq]
  exact ⟨hticket, hsymbol, hside, hvolume, hlevel _ hsl, hlevel _ htp⟩

lemma exists_store_passOverlay (now : Time) (rows : List IngestedRevision) (m : Master) :
    ∃ poll, storeSnapshot now (passOverlay rows m) = .ok poll := by
  refine exists_storeSnapshot now ?_ nodup_passOverlay
  intro p hp
  obtain ⟨k, -, hk⟩ := List.mem_filterMap.mp hp
  cases hwin : passWinners m.lastProjectedIngestId rows k with
  | none =>
    rw [overlayAt_of_none hwin] at hk
    have hmem := mem_of_index hk
    unfold baselineOf at hmem
    cases hlast : m.lastPoll with
    | none => simp [hlast] at hmem
    | some poll =>
      rw [hlast] at hmem
      exact poll.fits p hmem
  | some rev =>
    obtain ⟨hvalid, -, row, -, -, rfl⟩ := of_passWinners hwin
    rw [overlayAt_of_some hwin] at hk
    exact snapshotFits_of_row hvalid hk

def projectedMaster (now : Time) (rows : List IngestedRevision) (poll : Poll) (m : Master) :
    Master :=
  { m with
    lastPoll := some poll
    events := m.events ++ passEvents now rows m
    lastProjectedIngestId :=
      ((newRows m.lastProjectedIngestId rows).map (·.id)).foldl max 0 }

/-- **What a pass does.**  Without new rows it changes nothing; with new rows it never fails, and
writes the baseline, the events and the watermark. -/
theorem projectMasterEvents_cases (now : Time) (rows : List IngestedRevision) (m : Master) :
    (newRows m.lastProjectedIngestId rows = [] ∧
        ∃ outcome, projectMasterEvents now rows m = .ok (m, outcome)) ∨
      (newRows m.lastProjectedIngestId rows ≠ [] ∧
        ∃ poll outcome, storeSnapshot now (passOverlay rows m) = .ok poll ∧
          projectMasterEvents now rows m = .ok (projectedMaster now rows poll m, outcome)) := by
  by_cases hnew : newRows m.lastProjectedIngestId rows = []
  · exact Or.inl ⟨hnew, _, by rw [projectMasterEvents, if_pos hnew]⟩
  · obtain ⟨poll, hpoll⟩ := exists_store_passOverlay now rows m
    have hresult : ∃ outcome, projectMasterEvents now rows m
        = .ok (projectedMaster now rows poll m, outcome) := by
      rw [projectMasterEvents, if_neg hnew, hpoll]
      exact ⟨_, rfl⟩
    obtain ⟨outcome, houtcome⟩ := hresult
    exact Or.inr ⟨hnew, poll, outcome, hpoll, houtcome⟩

lemma index_projected {poll : Poll}
    (hpoll : storeSnapshot now (passOverlay rows m) = .ok poll) (t : ℤ) :
    index (baselineOf (projectedMaster now rows poll m)) t
      = (overlayAt (passWinners m.lastProjectedIngestId rows) (baselineOf m) t).map
          storePosition := by
  obtain ⟨-, -, hpositions⟩ := storeSnapshot_eq_ok hpoll
  have hbase : baselineOf (projectedMaster now rows poll m) = poll.positions := rfl
  rw [hbase, hpositions, index_map_storePosition, index_passOverlay]

lemma id_le_projected (now : Time) (poll : Poll) (hnew : newRows m.lastProjectedIngestId rows ≠ [])
    (hrow : row ∈ rows) : row.id ≤ (projectedMaster now rows poll m).lastProjectedIngestId := by
  have hfold : ∀ (ids : List ℕ) (start : ℕ), (∀ i ∈ ids, i ≤ ids.foldl max start) ∧
      start ≤ ids.foldl max start := by
    intro ids
    induction ids with
    | nil => simp
    | cons i ids ih =>
      intro start
      obtain ⟨hmem, hstart⟩ := ih (max start i)
      refine ⟨?_, (le_max_left start i).trans hstart⟩
      intro j hj
      rcases List.mem_cons.mp hj with rfl | hj
      · exact (le_max_right start j).trans hstart
      · exact hmem j hj
  have hmax : ∀ row' ∈ newRows m.lastProjectedIngestId rows,
      row'.id ≤ (projectedMaster now rows poll m).lastProjectedIngestId := by
    intro row' hrow'
    exact (hfold _ 0).1 _ (List.mem_map_of_mem hrow')
  rcases Nat.lt_or_ge m.lastProjectedIngestId row.id with hid | hid
  · exact hmax row (mem_newRows.mpr ⟨hrow, hid⟩)
  · -- an old row is below every new one
    obtain ⟨row', hrow'⟩ := List.exists_mem_of_ne_nil _ hnew
    have habove := (mem_newRows.mp hrow').2
    exact hid.trans (habove.le.trans (hmax row' hrow'))

/-- The watermark after a pass is below every bound of the ids that it consumes. -/
lemma projected_lt {n : ℕ} (now : Time) (poll : Poll) (hpos : 0 < n)
    (hnew : ∀ row ∈ newRows m.lastProjectedIngestId rows, row.id < n) :
    (projectedMaster now rows poll m).lastProjectedIngestId < n := by
  have hfold : ∀ (ids : List ℕ) (start : ℕ), start < n → (∀ i ∈ ids, i < n) →
      ids.foldl max start < n := by
    intro ids
    induction ids with
    | nil => exact fun start hstart _ => hstart
    | cons i ids ih =>
      intro start hstart hids
      refine ih (max start i) (max_lt hstart (hids i List.mem_cons_self)) fun j hj => ?_
      exact hids j (List.mem_cons_of_mem i hj)
  refine hfold _ 0 hpos fun i hi => ?_
  obtain ⟨row, hrow, rfl⟩ := List.mem_map.mp hi
  exact hnew row hrow

lemma storePosition_of_row {p : ObservedPosition}
    (hp : row.revision.toObservedPosition = some p) :
    storePosition (storePosition p) = storePosition p := by
  have hlevel : ∀ v : Option ℚ, numToDecimal v = v →
      levelToDecimal (levelToDecimal v) = levelToDecimal v := by
    intro v hv
    cases v with
    | none => rfl
    | some x =>
      have hx : quantize 10 x = x := Option.some.inj hv
      by_cases hsmall : |x| ≤ 1 / 1000000000
      · have hnone : levelToDecimal (some x) = none := if_pos hsmall
        rw [hnone]
        rfl
      · have hsame : levelToDecimal (some x) = some x := by
          rw [levelToDecimal, if_neg hsmall, hx]
        rw [hsame, hsame]
  simp only [PositionRevision.toObservedPosition] at hp
  split_ifs at hp
  obtain rfl := Option.some.inj hp
  have hsl : numToDecimal row.revision.sl = row.revision.sl :=
    congrArg PositionRevision.sl row.stored
  have htp : numToDecimal row.revision.tp = row.revision.tp :=
    congrArg PositionRevision.tp row.stored
  simp [storePosition, hlevel _ hsl, hlevel _ htp]

end EventProjection
end GuvFX
