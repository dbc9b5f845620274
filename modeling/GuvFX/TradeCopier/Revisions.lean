/-
# Revisions of a position

The fast path emits the state of a position whenever it changes, each time with a revision number
that grows for the ticket.  A stream of revisions is folded into the newest one of each ticket:
one that is not above the last revision applied to its ticket is stale, one that is malformed is
dropped, and the order of the stream does not matter.
-/
import Mathlib.Logic.Function.Basic
import GuvFX.Lib.Checks
import GuvFX.Lib.Latest
import GuvFX.TradeCopier.Account
import GuvFX.TradeCopier.Diff

namespace GuvFX
namespace Revisions

open Checks Diff Latest

def minRevision : ℤ := 1

def maxVolume : ℚ := 1000000

def maxPrice : ℚ := 10000000

structure PositionRevision where
  ticket : ℤ
  revision : ℤ
  observedTime : Option Time
  brokerEventTime : Option Time
  closed : Bool
  symbol : String
  side : String
  volume : ℚ
  sl : Option ℚ
  tp : Option ℚ
  priceOpen : Option ℚ
  openTime : Option Time
  originalVolume : Option ℚ
  deriving DecidableEq, Repr

def withinRange (bound : ℚ) (v : Option ℚ) : Bool := v.all fun x => |x| ≤ bound

def PositionRevision.structurallyInvalid (r : PositionRevision) : Option String :=
  firstRefusal
    ([(decide (0 < r.ticket), "bad_ticket"),
      (decide (minRevision ≤ r.revision), "bad_revision"),
      (r.observedTime.isSome, "no_observed_time")] ++
    (if r.closed then [] else
      [(decide (r.side = "BUY" ∨ r.side = "SELL"), "bad_side"),
       (decide (0 < r.volume), "non_positive_volume"),
       (decide (r.volume ≤ maxVolume), "volume_out_of_range")]) ++
    [(withinRange maxPrice r.sl, "sl_out_of_range"),
     (withinRange maxPrice r.tp, "tp_out_of_range"),
     (withinRange maxPrice r.priceOpen, "price_open_out_of_range"),
     (withinRange maxVolume r.originalVolume, "original_volume_out_of_range")])

def PositionRevision.structurallyValid (r : PositionRevision) : Bool :=
  r.structurallyInvalid.isNone

def PositionRevision.toObservedPosition (r : PositionRevision) : Option ObservedPosition :=
  if r.closed then none
  else some
    { ticket := r.ticket, symbol := r.symbol, side := r.side, volume := r.volume
      sl := r.sl, tp := r.tp, comment := "" }

def isStale (incomingRevision : ℤ) (lastAppliedRevision : Option ℤ) : Bool :=
  lastAppliedRevision.any fun last => incomingRevision ≤ last

structure FoldState where
  winner : ℤ → Option PositionRevision
  rejected : List (ℤ × ℤ × String)

def foldStep (priorApplied : ℤ → Option ℤ) (s : FoldState) (rev : PositionRevision) : FoldState :=
  match rev.structurallyInvalid with
  | some reason => { s with rejected := s.rejected ++ [(rev.ticket, rev.revision, reason)] }
  | none =>
    let bestRev :=
      match s.winner rev.ticket with
      | some currentBest => some currentBest.revision
      | none => priorApplied rev.ticket
    if isStale rev.revision bestRev then
      { s with rejected := s.rejected ++ [(rev.ticket, rev.revision, "stale_revision")] }
    else { s with winner := Function.update s.winner rev.ticket (some rev) }

structure FoldResult where
  positions : List ObservedPosition
  appliedRevision : ℤ → Option ℤ
  rejected : List (ℤ × ℤ × String)

/-- The newest well-formed revision of each ticket, with the revisions that were rejected. -/
def foldWinners (revisions : List PositionRevision) (priorApplied : ℤ → Option ℤ) : FoldState :=
  revisions.foldl (foldStep priorApplied) { winner := fun _ => none, rejected := [] }

def foldRevisions (revisions : List PositionRevision) (priorApplied : ℤ → Option ℤ) :
    FoldResult :=
  let s := foldWinners revisions priorApplied
  let tickets := ((revisions.map (·.ticket)).dedup).insertionSort (· ≤ ·)
  { positions := tickets.filterMap fun t => (s.winner t).bind (·.toObservedPosition)
    appliedRevision := fun t =>
      match s.winner t with
      | some rev => some rev.revision
      | none => priorApplied t
    rejected := s.rejected }

/-! ### What a well-formed revision is -/

variable {r : PositionRevision} {priorApplied : ℤ → Option ℤ} {t : ℤ}

lemma ticket_of_toObservedPosition {p : ObservedPosition} (h : r.toObservedPosition = some p) :
    p.ticket = r.ticket := by
  simp only [PositionRevision.toObservedPosition] at h
  split_ifs at h
  rw [← Option.some.inj h]

lemma bounds_of_valid (h : r.structurallyValid = true) (hopen : r.closed = false) :
    0 < r.volume ∧ r.volume ≤ maxVolume ∧ withinRange maxPrice r.sl = true ∧
      withinRange maxPrice r.tp = true := by
  rw [PositionRevision.structurallyValid, Option.isNone_iff_eq_none,
    PositionRevision.structurallyInvalid, firstRefusal_eq_none_iff, hopen] at h
  have hvolume := h (decide (0 < r.volume), "non_positive_volume") (by simp)
  have hmax := h (decide (r.volume ≤ maxVolume), "volume_out_of_range") (by simp)
  have hsl := h (withinRange maxPrice r.sl, "sl_out_of_range") (by simp)
  have htp := h (withinRange maxPrice r.tp, "tp_out_of_range") (by simp)
  exact ⟨by simpa using hvolume, by simpa using hmax, hsl, htp⟩

/-! ### The fold, ticket by ticket -/

def ofTicket (t : ℤ) (revisions : List PositionRevision) : List PositionRevision :=
  revisions.filter fun r => r.structurallyValid && decide (r.ticket = t)

lemma mem_ofTicket {revisions : List PositionRevision} :
    r ∈ ofTicket t revisions ↔ r ∈ revisions ∧ r.structurallyValid = true ∧ r.ticket = t := by
  simp [ofTicket]

lemma foldStep_winner (s : FoldState) (rev : PositionRevision) :
    (foldStep priorApplied s rev).winner t
      = if rev.structurallyValid && decide (rev.ticket = t) then
          keepNewer (·.revision) (priorApplied t) (s.winner t) rev
        else s.winner t := by
  unfold foldStep PositionRevision.structurallyValid
  cases hvalid : rev.structurallyInvalid with
  | some reason => simp
  | none =>
    by_cases ht : rev.ticket = t
    · subst ht
      cases hwin : s.winner rev.ticket with
      | none =>
        cases hstale : stale (priorApplied rev.ticket) rev.revision <;>
          simp_all [keepNewer_none, isStale, stale]
      | some w =>
        by_cases hle : rev.revision ≤ w.revision <;>
          simp [keepNewer_some, isStale, hle, hwin]
    · simp only [ht, decide_false, Bool.and_false, Bool.false_eq_true, if_false]
      split_ifs
      · rfl
      · exact Function.update_of_ne (Ne.symm ht) _ _

/-- **The fold of one ticket** is the latest of its well-formed revisions above the revision that
was applied before. -/
theorem foldWinners_winner (revisions : List PositionRevision) (priorApplied : ℤ → Option ℤ)
    (t : ℤ) : (foldWinners revisions priorApplied).winner t
      = latest (·.revision) (priorApplied t) (ofTicket t revisions) := by
  have hfold : ∀ s : FoldState, (revisions.foldl (foldStep priorApplied) s).winner t
      = (ofTicket t revisions).foldl (keepNewer (·.revision) (priorApplied t)) (s.winner t) := by
    induction revisions with
    | nil => exact fun s => rfl
    | cons rev revisions ih =>
      intro s
      rw [List.foldl_cons, ih, foldStep_winner, ofTicket, ofTicket, List.filter_cons]
      split_ifs <;> rfl
  exact hfold _

/-! ### Orders and parts of a stream -/

/-- The well-formed revisions of one ticket with one number are the same. -/
def Consistent (revisions : List PositionRevision) : Prop :=
  ∀ r ∈ revisions, ∀ r' ∈ revisions, r.structurallyValid = true → r'.structurallyValid = true →
    r.ticket = r'.ticket → r.revision = r'.revision → r = r'

variable {revisions revisions' : List PositionRevision} {p : ObservedPosition}

lemma appliedRevision_eq (t : ℤ) : (foldRevisions revisions priorApplied).appliedRevision t =
    mark (·.revision) (priorApplied t) ((foldWinners revisions priorApplied).winner t) := by
  simp only [foldRevisions, mark]
  cases (foldWinners revisions priorApplied).winner t <;> rfl

lemma mem_positions : p ∈ (foldRevisions revisions priorApplied).positions ↔
    ((foldWinners revisions priorApplied).winner p.ticket).bind (·.toObservedPosition) = some p := by
  have hticket : ∀ t, ((foldWinners revisions priorApplied).winner t).bind (·.toObservedPosition) =
      some p → t = p.ticket ∧ t ∈ revisions.map (·.ticket) := by
    intro t h
    obtain ⟨r, hwinner, hp⟩ := Option.bind_eq_some_iff.mp h
    rw [foldWinners_winner] at hwinner
    obtain ⟨hmem, -, rfl⟩ := mem_ofTicket.mp (mem_of_latest hwinner)
    exact ⟨(ticket_of_toObservedPosition hp).symm, List.mem_map_of_mem hmem⟩
  simp only [foldRevisions, List.mem_filterMap, List.mem_insertionSort, List.mem_dedup]
  constructor
  · rintro ⟨t, -, h⟩
    exact (hticket t h).1 ▸ h
  · exact fun h => ⟨p.ticket, (hticket p.ticket h).2, h⟩

lemma winner_perm (hsame : Consistent revisions) (hperm : revisions'.Perm revisions) (t : ℤ) :
    (foldWinners revisions' priorApplied).winner t = (foldWinners revisions priorApplied).winner t := by
  rw [foldWinners_winner, foldWinners_winner]
  have hmem : ∀ r, r ∈ ofTicket t revisions' ↔ r ∈ ofTicket t revisions := fun r => by
    rw [mem_ofTicket, mem_ofTicket, hperm.mem_iff]
  refine (latest_eq_iff fun r hr r' hr' => ?_).mpr ?_
  · obtain ⟨hr, hvalid, hticket⟩ := mem_ofTicket.mp ((hmem r).mp hr)
    obtain ⟨hr', hvalid', hticket'⟩ := mem_ofTicket.mp ((hmem r').mp hr')
    exact hsame r hr r' hr' hvalid hvalid' (hticket.trans hticket'.symm)
  · have hlatest := isLatest_latest (·.revision) (priorApplied t) (ofTicket t revisions)
    cases hbest : latest (·.revision) (priorApplied t) (ofTicket t revisions) with
    | none =>
      rw [hbest] at hlatest
      exact fun r hr => hlatest r ((hmem r).mp hr)
    | some w =>
      rw [hbest] at hlatest
      exact ⟨(hmem w).mpr hlatest.1, hlatest.2.1, fun r hr => hlatest.2.2 r ((hmem r).mp hr)⟩

lemma winner_append (first second : List PositionRevision) (t : ℤ) :
    (foldWinners (first ++ second) priorApplied).winner t =
      ((foldWinners second (foldRevisions first priorApplied).appliedRevision).winner t).or
        ((foldWinners first priorApplied).winner t) := by
  rw [foldWinners_winner, foldWinners_winner, appliedRevision_eq, foldWinners_winner, ← latest_append,
    ofTicket, List.filter_append]
  rfl

/-- A fold of consistent revisions does not depend on their order, and keeps of each ticket the highest
well-formed revision above its mark.  In two parts it gives the same marks; a ticket has the position of
the second part where that has moved its mark, and the one of the first part otherwise. -/
theorem foldRevisions_spec (hsame : Consistent revisions) :
    (∀ revisions', revisions'.Perm revisions →
      (foldRevisions revisions' priorApplied).positions =
          (foldRevisions revisions priorApplied).positions ∧
        (foldRevisions revisions' priorApplied).appliedRevision =
          (foldRevisions revisions priorApplied).appliedRevision) ∧
    (∀ t, ∃ best, IsLatest (·.revision) (priorApplied t) (ofTicket t revisions) best ∧
      (foldRevisions revisions priorApplied).appliedRevision t =
        (best.map (·.revision)).or (priorApplied t) ∧
      ∀ p : ObservedPosition, p.ticket = t →
        (p ∈ (foldRevisions revisions priorApplied).positions ↔
          best.bind (·.toObservedPosition) = some p)) ∧
    ∀ first second, revisions = first ++ second →
      let early := foldRevisions first priorApplied
      let late := foldRevisions second early.appliedRevision
      (foldRevisions revisions priorApplied).appliedRevision = late.appliedRevision ∧
      ∀ p, p ∈ (foldRevisions revisions priorApplied).positions ↔
        if late.appliedRevision p.ticket = early.appliedRevision p.ticket then p ∈ early.positions
        else p ∈ late.positions := by
  refine ⟨fun revisions' hperm => ⟨?_, ?_⟩, fun t => ?_, ?_⟩
  · have htickets : ((revisions'.map (·.ticket)).dedup).insertionSort (· ≤ ·) =
        ((revisions.map (·.ticket)).dedup).insertionSort (· ≤ ·) := by
      refine List.Perm.eq_of_sortedLE List.sortedLE_insertionSort List.sortedLE_insertionSort ?_
      exact (List.perm_insertionSort _ _).trans
        (((hperm.map _).dedup).trans (List.perm_insertionSort _ _).symm)
    simp only [foldRevisions, htickets, winner_perm hsame hperm]
  · funext t
    rw [appliedRevision_eq, appliedRevision_eq, winner_perm hsame hperm]
  · refine ⟨_, isLatest_latest _ _ _, ?_, fun p hp => ?_⟩
    · rw [appliedRevision_eq, foldWinners_winner]
      rfl
    · rw [mem_positions, hp, foldWinners_winner]
  · rintro first second rfl early late
    have hmark : ∀ t, late.appliedRevision t = mark (·.revision) (early.appliedRevision t)
        ((foldWinners second early.appliedRevision).winner t) := fun t => appliedRevision_eq t
    constructor
    · funext t
      rw [appliedRevision_eq, winner_append, mark_or, hmark, appliedRevision_eq]
    · intro p
      have hmoved : late.appliedRevision p.ticket = early.appliedRevision p.ticket ↔
          (foldWinners second early.appliedRevision).winner p.ticket = none := by
        rw [hmark, foldWinners_winner]
        exact mark_latest_eq_iff
      rw [mem_positions, mem_positions, mem_positions, winner_append, if_congr hmoved rfl rfl]
      split_ifs with hnone
      · rw [hnone, Option.none_or]
      · obtain ⟨w, hw⟩ := Option.ne_none_iff_exists'.mp hnone
        rw [hw, Option.some_or]

def opened (revision : ℤ) : PositionRevision where
  ticket := 7
  revision := revision
  observedTime := some 0
  brokerEventTime := none
  closed := false
  symbol := "EURUSD"
  side := "BUY"
  volume := 1
  sl := none
  tp := none
  priceOpen := none
  openTime := none
  originalVolume := none

theorem foldRevisions_spec_opened :
    (foldRevisions [opened 2, opened 1] fun _ => none).positions =
      (foldRevisions [opened 1, opened 2] fun _ => none).positions :=
  have hsame : Consistent [opened 1, opened 2] := by
    unfold Consistent
    decide +kernel
  ((foldRevisions_spec hsame).1 _ (List.Perm.swap _ _ _)).1

/-- A position that the second part says nothing of is not among those of the second part. -/
theorem not_foldRevisions_append : ¬ ∀ (first second : List PositionRevision) priorApplied,
    Consistent (first ++ second) → (foldRevisions (first ++ second) priorApplied).positions =
      (foldRevisions second (foldRevisions first priorApplied).appliedRevision).positions := by
  intro h
  have hsame : Consistent ([opened 1] ++ []) := by
    unfold Consistent
    decide +kernel
  have hpositions := h [opened 1] [] (fun _ => none) hsame
  revert hpositions
  decide +kernel

end Revisions
end GuvFX
