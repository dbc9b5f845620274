/-
# Revisions that arrive late

A revision may be ingested after the baseline has been read at a later time than the revision was
observed.  A pass compares it with the revisions of its own ticket only, never with the baseline,
so a late revision that differs from the baseline is laid over it: its ticket goes back to an
older state, and events are emitted for it.  It does no harm exactly when it describes what
the baseline holds already.
-/
import Mathlib.Tactic.Linarith
import GuvFX.TradeCopier.SharedLedger

namespace GuvFX
namespace SharedLedger

open Decimal Diff Ledger Latest Observer Revisions EventProjection Runs
open Reconcile (MasterReadResult)

/-! ### What it means to be late -/

/-- Was the revision observed before the baseline was read? -/
def late (m : Master) (r : PositionRevision) : Bool :=
  m.lastPoll.any fun poll => poll.readAt.any fun readAt =>
    r.observedTime.any fun observed => observed < readAt

/-- The revision describes, in the columns of a snapshot, what the baseline holds of its ticket:
no position if it is closed, else one with the same symbol, side, volume and levels. -/
def Describes (m : Master) (r : PositionRevision) : Prop :=
  (index (baselineOf m) r.ticket).map copyOf
    = (r.toObservedPosition.map storePosition).map copyOf

/-- Every late revision that the pass applies describes what the baseline holds already. -/
def Harmless (m : Master) (rows : List IngestedRevision) : Prop :=
  ∀ r, Applies m.lastProjectedIngestId rows r → late m r = true → Describes m r

/-- The step from `m` to `m'` does nothing to the ticket `t`. -/
structure Unharmed (m m' : Master) (t : ℤ) : Prop where
  silent : ∀ e ∈ m'.events.drop m.events.length, e.spec.ticket ≠ t
  /-- The baseline holds what it held: it is not moved back, and nothing is opened again. -/
  kept : (index (baselineOf m') t).map copyOf = (index (baselineOf m) t).map copyOf
  nextPoll : ∀ read, ticketEvents (index (baselineOf m') t) (index read t)
    = ticketEvents (index (baselineOf m) t) (index read t)

/-- No late revision that the pass applies does anything to its ticket. -/
def NoRegression (m m' : Master) (rows : List IngestedRevision) : Prop :=
  ∀ r, Applies m.lastProjectedIngestId rows r → late m r = true → Unharmed m m' r.ticket

/-- If the step is a projection pass, it is without regression. -/
def PassKeeps (s : State) (a : Action) : Prop :=
  match a with
  | .ingest (.project _) => NoRegression s.master (step s a).master s.committed
  | _ => True

/-- If the step is a projection pass, the late revisions it applies are harmless. -/
def PassHarmless (s : State) (a : Action) : Prop :=
  match a with
  | .ingest (.project _) => Harmless s.master s.committed
  | _ => True

/-! ### What a pass does to the ticket of a late revision -/

variable {m : Master} {rows : List IngestedRevision} {r : PositionRevision} {t : ℤ}

lemma abs_storeVolume_sub_le (v : ℚ) : |v - storeVolume v| ≤ volumeEps := by
  rw [abs_sub_comm]
  exact (abs_quantize_sub_le 3 v).trans (by norm_num [volumeEps])

lemma levelsDiffer_levelToDecimal (v : Option ℚ) : levelsDiffer (levelToDecimal v) v = false := by
  cases v with
  | none => simp [levelsDiffer, levelToDecimal, priceEps_pos.le]
  | some x =>
    simp only [levelToDecimal]
    split_ifs with hx
    · simpa [levelsDiffer, priceEps] using hx
    · have hround := (abs_quantize_sub_le 10 x).trans
        (show (1 : ℚ) / 2 / 10 ^ 10 ≤ priceEps by norm_num [priceEps])
      simpa [levelsDiffer] using hround

lemma ticketEvents_of_stored {before after : ObservedPosition}
    (h : copyOf before = copyOf (storePosition after)) :
    ticketEvents (some before) (some after) = [] := by
  simp only [copyOf, Copy.mk.injEq, storePosition_volume, storePosition_sl, storePosition_tp] at h
  obtain ⟨-, -, hvolume, hsl, htp⟩ := h
  have hclose := abs_le.mp (abs_storeVolume_sub_le after.volume)
  have hvol : volumeEvents before after = [] := by
    simp only [volumeEvents, hvolume]
    rw [if_neg (by linarith), if_neg (by linarith)]
  simp [ticketEvents, levelEvents, slEvents, tpEvents, hvol, hsl, htp,
    levelsDiffer_levelToDecimal]

lemma ticketEvents_of_describes (h : Describes m r) :
    ticketEvents (index (baselineOf m) r.ticket) r.toObservedPosition = [] := by
  unfold Describes at h
  cases hbase : index (baselineOf m) r.ticket with
  | none =>
    cases hobs : r.toObservedPosition with
    | none => rfl
    | some p => simp [hbase, hobs] at h
  | some b =>
    cases hobs : r.toObservedPosition with
    | none => simp [hbase, hobs] at h
    | some p =>
      rw [hbase, hobs] at h
      exact ticketEvents_of_stored (Option.some.inj h)

lemma ticketEvents_congr {before before' after : Option ObservedPosition}
    (hticket : ∀ p p', before = some p → before' = some p' → p.ticket = p'.ticket)
    (h : before.map copyOf = before'.map copyOf) :
    ticketEvents before after = ticketEvents before' after := by
  cases before with
  | none =>
    cases before' with
    | none => rfl
    | some p' => cases h
  | some p =>
    cases before' with
    | none => cases h
    | some p' =>
      have hp := hticket p p' rfl rfl
      have hcopy : copyOf p = copyOf p' := Option.some.inj h
      simp only [copyOf, Copy.mk.injEq] at hcopy
      obtain ⟨hsymbol, hside, hvolume, hsl, htp⟩ := hcopy
      cases after <;>
        simp [ticketEvents, volumeEvents, levelEvents, slEvents, tpEvents, hp, hsymbol, hside,
          hvolume, hsl, htp]

lemma ticket_of_mem_passEvents {now : Time} {e : MasterEvent} (he : e ∈ passEvents now rows m)
    (hnone : ticketEvents (index (baselineOf m) t)
      (overlayAt (passWinners m.lastProjectedIngestId rows) (baselineOf m) t) = []) :
    e.spec.ticket ≠ t := by
  rintro rfl
  have hspec : e.spec ∈ (passEvents now rows m).map (·.spec) := List.mem_map_of_mem he
  rw [passEvents, map_spec_ledgerRows] at hspec
  obtain ⟨spec, hmem, hstored⟩ := List.mem_map.mp hspec
  have hticket : spec.ticket = e.spec.ticket := by rw [← hstored]; rfl
  have hfilter : spec ∈ (diffPositions (baselineOf m) (passOverlay rows m)).filter
      (·.ticket = e.spec.ticket) := by
    simp [hmem, hticket]
  rw [filter_diffPositions, index_passOverlay, hnone] at hfilter
  cases hfilter

/-- **One pass.**  It leaves the tickets of the late revisions alone exactly when each of these
revisions describes what the baseline holds. -/
lemma noRegression_iff_harmless {s : State} (hrows : DistinctRevisions s.committed) (now : Time) :
    NoRegression s.master (step s (.ingest (.project now))).master s.committed ↔
      Harmless s.master s.committed := by
  rcases ingestStep_project s now with ⟨hnew, -⟩ | ⟨-, poll, hpoll, hstep⟩
  · -- nothing is new, so nothing is applied
    have hnone : ∀ r, ¬ Applies s.master.lastProjectedIngestId s.committed r := by
      rintro r ⟨⟨row, hrow, hid, -⟩, -, -, -⟩
      exact absurd hid (not_lt.mpr (newRows_eq_nil_iff.mp hnew row hrow))
    exact ⟨fun _ r hr => absurd hr (hnone r), fun _ r hr => absurd hr (hnone r)⟩
  · have hmaster : (step s (.ingest (.project now))).master
        = projectedMaster now s.committed poll s.master := by
      rw [step, hstep]
    rw [hmaster]
    -- what the baseline holds after the pass is what the applied revision describes
    have hafter : ∀ r, Applies s.master.lastProjectedIngestId s.committed r →
        index (baselineOf (projectedMaster now s.committed poll s.master)) r.ticket
          = r.toObservedPosition.map storePosition := by
      intro r hr
      rw [index_projected hpoll, overlayAt_of_some ((applies_iff hrows).mp hr)]
    constructor
    · intro hno r hr hlate
      have hkept := (hno r hr hlate).kept
      rw [hafter r hr] at hkept
      exact hkept.symm
    · intro hharmless r hr hlate
      have hdescribes := hharmless r hr hlate
      have hkept : (index (baselineOf (projectedMaster now s.committed poll s.master))
          r.ticket).map copyOf = (index (baselineOf s.master) r.ticket).map copyOf := by
        rw [hafter r hr]
        exact hdescribes.symm
      refine ⟨?_, hkept, ?_⟩
      · intro e he
        have hevents : (projectedMaster now s.committed poll s.master).events.drop
            s.master.events.length = passEvents now s.committed s.master := by
          simp [projectedMaster]
        rw [hevents] at he
        refine ticket_of_mem_passEvents he ?_
        rw [overlayAt_of_some ((applies_iff hrows).mp hr)]
        exact ticketEvents_of_describes hdescribes
      · intro read
        refine ticketEvents_congr (fun p p' hp hp' => ?_) hkept
        rw [ticket_of_index hp, ticket_of_index hp']

/-- **Late revisions.**  In every run of polls, ingest transactions and projection passes, no late
revision does anything to its ticket, exactly if in every pass of the run the late revisions that
it applies describe what the baseline holds. -/
theorem late_revisions_keep_iff (as : List Action) :
    StepsMeet step PassKeeps init as ↔ StepsMeet step PassHarmless init as := by
  refine stepsMeet_congr distinctRevisions_step (fun s a hs => ?_) distinctRevisions_nil as
  cases a with
  | lease token leaseUntil => exact Iff.rfl
  | record now result leaseToken => exact Iff.rfl
  | ingest a =>
    cases a with
    | insert r => exact Iff.rfl
    | commit id => exact Iff.rfl
    | abort id => exact Iff.rfl
    | project now => exact noRegression_iff_harmless hs now

/-! ### A closed ticket that is opened again -/

/-- A revision of the ticket 7 that was observed at the time 105. -/
def lateRevision : PositionRevision :=
  { ticket := 7, revision := 1, observedTime := some 105, brokerEventTime := none
    closed := false, symbol := "EURUSD", side := "BUY", volume := 1, sl := none, tp := none
    priceOpen := none, openTime := none, originalVolume := none }

/-- A poll at the time `now` that reads the positions `positions`. -/
def pollAt (now : Time) (positions : List ObservedPosition) : Action :=
  .record now { ok := true, reason := "ok", positions, readAt := some now } none

/-- The polls see the ticket 7 opened and closed; the revision of its opening is consumed after
that. -/
def lateOpen : List Action :=
  [pollAt 100 [], pollAt 110 lateRevision.toObservedPosition.toList, pollAt 120 [],
    .ingest (.insert lateRevision), .ingest (.commit 1)]

/-- **A late revision opens a closed ticket again.**  The polls have emitted the opening and the
closing of the ticket; the pass emits the opening a second time. -/
theorem late_revision_reopens :
    ¬ StepsMeet step PassKeeps init (lateOpen ++ [.ingest (.project 130)]) ∧
      (run step init (lateOpen ++ [.ingest (.project 130)])).master.events.map
        (fun e => (e.spec.ticket, e.spec.eventType))
          = [(7, .open_), (7, .fullClose), (7, .open_)] := by
  refine ⟨fun h => ?_, by decide +kernel⟩
  have hpass := (stepsMeet_append.mp h).2.1
  have hrows : DistinctRevisions (run step init lateOpen).committed :=
    run_invariant distinctRevisions_step distinctRevisions_nil lateOpen
  have hharmless := (noRegression_iff_harmless hrows 130).mp hpass
  have hwins : passWinners (run step init lateOpen).master.lastProjectedIngestId
      (run step init lateOpen).committed lateRevision.ticket = some lateRevision := by
    decide +kernel
  have hlate : late (run step init lateOpen).master lateRevision = true := by decide +kernel
  have hdescribes := hharmless lateRevision ((applies_iff hrows).mpr hwins) hlate
  unfold Describes at hdescribes
  revert hdescribes
  decide +kernel

end SharedLedger
end GuvFX
