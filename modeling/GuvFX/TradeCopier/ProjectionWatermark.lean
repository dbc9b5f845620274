/-
# The watermark of the projection

A pass consumes the visible rows above the watermark and moves the watermark to the highest of
their ids.  Ids are taken when a row is inserted and rows become visible when their transaction
commits, so a row may become visible below the watermark; no pass will ever read it.  As long as
every row commits above the watermark, and no malformed row that has been consumed stands above
a well-formed one that has not, the baseline is the fold of all rows after each pass.
-/
import GuvFX.TradeCopier.SharedLedger

namespace GuvFX
namespace SharedLedger

open Decimal Diff Latest Observer Revisions EventProjection Runs

/-! ### What the fast path promises -/

def foldOfAll (rows : List IngestedRevision) : List ObservedPosition :=
  (foldRevisions (rows.map (·.revision)) fun _ => none).positions.map storePosition

/-- After one more pass, every well-formed committed row has been folded by some pass, and the
baseline is the fold of all committed rows. -/
def CompleteAfterPass (s : State) : Prop :=
  ∀ now,
    (∀ row ∈ s.committed, row.revision.structurallyValid = true →
      row ∈ (ingestStep s (.project now)).folded) ∧
    ∀ t, index (baselineOf (ingestStep s (.project now)).master) t = index (foldOfAll s.committed) t

/-- No well-formed row above the watermark has been overtaken: if a consumed row of its ticket has
a higher revision, then so has a well-formed row. -/
def unshadowed (watermark : ℕ) (rows : List IngestedRevision) : Bool :=
  rows.all fun row =>
    !(decide (watermark < row.id) && row.revision.structurallyValid) ||
      (!(rows.any fun old => decide (old.id ≤ watermark) &&
          decide (old.revision.ticket = row.revision.ticket) &&
          decide (row.revision.revision < old.revision.revision)) ||
        rows.any fun newer => newer.revision.structurallyValid &&
          decide (newer.revision.ticket = row.revision.ticket) &&
          decide (row.revision.revision < newer.revision.revision))

/-- A commit is in time: a well-formed row becomes visible above the watermark, and no row above
the watermark is overtaken by it. -/
def commitInTime (s : State) (a : IngestAction) : Bool :=
  match a with
  | .commit id =>
    (s.inFlight.find? fun row => row.id = id).all fun row =>
      s.committed.any (sameRevision row) ||
        ((!row.revision.structurallyValid || decide (s.master.lastProjectedIngestId < row.id)) &&
          unshadowed s.master.lastProjectedIngestId (s.committed ++ [row]))
  | _ => true

/-! ### The newest revision of all rows -/

variable {rows : List IngestedRevision} {watermark : ℕ} {t : ℤ} {r : PositionRevision}

/-- The newest well-formed revision of the ticket `t` among the rows. -/
def newestRevision (rows : List IngestedRevision) (t : ℤ) : Option PositionRevision :=
  latest (·.revision) none (ofTicket t (rows.map (·.revision)))

lemma mem_ofTicket_rows : r ∈ ofTicket t (rows.map (·.revision)) ↔
    ∃ row ∈ rows, row.revision = r ∧ r.structurallyValid = true ∧ r.ticket = t := by
  rw [mem_ofTicket, List.mem_map]
  constructor
  · rintro ⟨⟨row, hrow, rfl⟩, hvalid, hticket⟩
    exact ⟨row, hrow, rfl, hvalid, hticket⟩
  · rintro ⟨row, hrow, rfl, hvalid, hticket⟩
    exact ⟨⟨row, hrow, rfl⟩, hvalid, hticket⟩

lemma newestRevision_eq_some_iff (hrows : DistinctRevisions rows) :
    newestRevision rows t = some r ↔
      (∃ row ∈ rows, row.revision = r ∧ r.structurallyValid = true ∧ r.ticket = t) ∧
        ∀ row ∈ rows, row.revision.structurallyValid = true → row.revision.ticket = t →
          row.revision.revision ≤ r.revision := by
  have hinj : ∀ a ∈ ofTicket t (rows.map (·.revision)),
      ∀ b ∈ ofTicket t (rows.map (·.revision)), a.revision = b.revision → a = b := by
    intro a ha b hb hab
    obtain ⟨rowa, hrowa, rfl, -, hta⟩ := mem_ofTicket_rows.mp ha
    obtain ⟨rowb, hrowb, rfl, -, htb⟩ := mem_ofTicket_rows.mp hb
    rw [hrows rowa hrowa rowb hrowb (hta.trans htb.symm) hab]
  rw [newestRevision, latest_eq_iff hinj, IsLatest, mem_ofTicket_rows]
  constructor
  · rintro ⟨hmem, -, hmax⟩
    refine ⟨hmem, fun row hrow hvalid hticket => ?_⟩
    exact hmax _ (mem_ofTicket_rows.mpr ⟨row, hrow, rfl, hvalid, hticket⟩)
  · rintro ⟨hmem, hmax⟩
    refine ⟨hmem, rfl, fun a ha => ?_⟩
    obtain ⟨row, hrow, rfl, hvalid, hticket⟩ := mem_ofTicket_rows.mp ha
    exact hmax row hrow hvalid hticket

lemma newestRevision_eq_none_iff :
    newestRevision rows t = none ↔
      ∀ row ∈ rows, row.revision.structurallyValid = true → row.revision.ticket ≠ t := by
  constructor
  · intro h row hrow hvalid hticket
    have hspec := isLatest_latest (·.revision) none (ofTicket t (rows.map (·.revision)))
    rw [newestRevision] at h
    rw [h] at hspec
    have hstale := hspec _ (mem_ofTicket_rows.mpr ⟨row, hrow, rfl, hvalid, hticket⟩)
    cases hstale
  · intro h
    have hempty : ofTicket t (rows.map (·.revision)) = [] := by
      rw [List.eq_nil_iff_forall_not_mem]
      intro r hr
      obtain ⟨row, hrow, rfl, hvalid, hticket⟩ := mem_ofTicket_rows.mp hr
      exact h row hrow hvalid hticket
    rw [newestRevision, hempty]
    rfl

lemma index_foldOfAll (rows : List IngestedRevision) (t : ℤ) :
    index (foldOfAll rows) t
      = ((newestRevision rows t).bind (·.toObservedPosition)).map storePosition := by
  have hticket : ∀ k p, (newestRevision rows k).bind (·.toObservedPosition) = some p →
      p.ticket = k := by
    intro k p hp
    obtain ⟨r, hr, hobs⟩ := Option.bind_eq_some_iff.mp hp
    obtain ⟨-, -, -, -, hrk⟩ := mem_ofTicket_rows.mp (mem_of_latest hr)
    rw [ticket_of_toObservedPosition hobs, hrk]
  have hpositions : (foldRevisions (rows.map (·.revision)) fun _ => none).positions
      = ((((rows.map (·.revision)).map (·.ticket)).dedup).insertionSort (· ≤ ·)).filterMap
          fun k => (newestRevision rows k).bind (·.toObservedPosition) := by
    simp only [foldRevisions, foldWinners_winner, newestRevision]
  rw [foldOfAll, index_map_storePosition, hpositions]
  refine congrArg _ (index_filterMap hticket ?_ fun p hp => ?_)
  · exact ((List.perm_insertionSort _ _).nodup_iff).mpr (List.nodup_dedup _)
  · obtain ⟨r, hr, -⟩ := Option.bind_eq_some_iff.mp hp
    obtain ⟨row, hrow, rfl, -, hrt⟩ := mem_ofTicket_rows.mp (mem_of_latest hr)
    rw [List.mem_insertionSort, List.mem_dedup, List.map_map, List.mem_map]
    exact ⟨row, hrow, hrt⟩

/-! ### One pass -/

def consumed (watermark : ℕ) (rows : List IngestedRevision) : List IngestedRevision :=
  rows.filter fun row => row.id ≤ watermark

lemma distinctRevisions_consumed (hrows : DistinctRevisions rows) :
    DistinctRevisions (consumed watermark rows) := fun a ha b hb =>
  hrows a (List.mem_of_mem_filter ha) b (List.mem_of_mem_filter hb)

lemma exists_newer_of_unshadowed (h : unshadowed watermark rows = true)
    {row old : IngestedRevision} (hrow : row ∈ rows) (hid : watermark < row.id)
    (hvalid : row.revision.structurallyValid = true) (hold : old ∈ rows)
    (holdid : old.id ≤ watermark) (hticket : old.revision.ticket = row.revision.ticket)
    (hlt : row.revision.revision < old.revision.revision) :
    ∃ newer ∈ rows, newer.revision.structurallyValid = true ∧
      newer.revision.ticket = row.revision.ticket ∧
      row.revision.revision < newer.revision.revision := by
  have hall := List.all_eq_true.mp h row hrow
  have hshadow : (rows.any fun old => decide (old.id ≤ watermark) &&
      decide (old.revision.ticket = row.revision.ticket) &&
      decide (row.revision.revision < old.revision.revision)) = true := by
    rw [List.any_eq_true]
    exact ⟨old, hold, by simp [holdid, hticket, hlt]⟩
  simp only [hid, hvalid, hshadow, decide_true, Bool.and_self, Bool.not_true,
    Bool.false_or] at hall
  obtain ⟨newer, hnewer, hn⟩ := List.any_eq_true.mp hall
  simp only [Bool.and_eq_true, decide_eq_true_eq] at hn
  exact ⟨newer, hnewer, hn.1.1, hn.1.2, hn.2⟩

/-- **The winners of a pass continue the fold.**  When no row has been overtaken, the newest
revision of all rows is the winner of the pass, or else the newest of the consumed rows. -/
theorem newestRevision_of_pass (hrows : DistinctRevisions rows)
    (hshadow : unshadowed watermark rows = true) (t : ℤ) :
    newestRevision rows t
      = (passWinners watermark rows t).or (newestRevision (consumed watermark rows) t) := by
  cases hnewest : newestRevision rows t with
  | none =>
    -- no row of the ticket is well formed
    have hno := newestRevision_eq_none_iff.mp hnewest
    have hwin : passWinners watermark rows t = none := by
      rw [Option.eq_none_iff_forall_not_mem]
      intro r hr
      obtain ⟨hvalid, hticket, row, hrow, -, rfl⟩ := of_passWinners hr
      exact hno row hrow hvalid hticket
    have hold : newestRevision (consumed watermark rows) t = none :=
      newestRevision_eq_none_iff.mpr fun row hrow => hno row (List.mem_of_mem_filter hrow)
    rw [hwin, hold]
    rfl
  | some r =>
    obtain ⟨⟨row, hrow, rfl, hvalid, hticket⟩, hmax⟩ :=
      (newestRevision_eq_some_iff hrows).mp hnewest
    rcases Nat.lt_or_ge watermark row.id with hid | hid
    · -- it is new, and no consumed row is above it
      have hwin : passWinners watermark rows t = some row.revision := by
        rw [← hticket]
        refine (applies_iff hrows).mp ⟨⟨row, hrow, hid, rfl⟩, hvalid, ?_, ?_⟩
        · intro row' hrow' _ hticket' hvalid'
          exact hmax row' hrow' hvalid' (hticket'.trans hticket)
        · intro old hold holdid hticket'
          rcases lt_trichotomy old.revision.revision row.revision.revision with hlt | heq | hgt
          · exact hlt
          · rw [hrows old hold row hrow hticket' heq] at holdid
            omega
          · obtain ⟨newer, hnewer, hnvalid, hnticket, hnlt⟩ :=
              exists_newer_of_unshadowed hshadow hrow hid hvalid hold holdid hticket' hgt
            exact absurd (hmax newer hnewer hnvalid (hnticket.trans hticket)) (not_le.mpr hnlt)
      rw [hwin]
      rfl
    · -- it has been consumed, so that every new one is stale
      have hwin : passWinners watermark rows t = none := by
        rw [Option.eq_none_iff_forall_not_mem]
        intro r hr
        obtain ⟨hrvalid, hrticket, row', hrow', -, rfl⟩ := of_passWinners hr
        have happlies : Applies watermark rows row'.revision :=
          (applies_iff hrows).mpr (by rw [hrticket]; exact hr)
        have habove := happlies.above row hrow hid (hticket.trans hrticket.symm)
        exact absurd (hmax row' hrow' hrvalid hrticket) (not_le.mpr habove)
      have hold : newestRevision (consumed watermark rows) t = some row.revision := by
        refine (newestRevision_eq_some_iff (distinctRevisions_consumed hrows)).mpr
          ⟨⟨row, ?_, rfl, hvalid, hticket⟩, fun row' hrow' => ?_⟩
        · exact List.mem_filter.mpr ⟨hrow, by simpa using hid⟩
        · exact hmax row' (List.mem_of_mem_filter hrow')
      rw [hwin, hold]
      rfl

/-! ### Every run of the fast path -/

/-- What holds as long as the commits are in time. -/
structure Folding (s : State) : Prop where
  distinct : DistinctRevisions s.committed
  shadow : unshadowed s.master.lastProjectedIngestId s.committed = true
  /-- Every well-formed row at or below the watermark has been folded. -/
  folded : ∀ row ∈ s.committed, row.id ≤ s.master.lastProjectedIngestId →
    row.revision.structurallyValid = true → row ∈ s.folded
  /-- The baseline is the fold of the consumed rows. -/
  baseline : ∀ t, index (baselineOf s.master) t
    = ((newestRevision (consumed s.master.lastProjectedIngestId s.committed) t).bind
        (·.toObservedPosition)).map storePosition

lemma folding_init : Folding init where
  distinct := distinctRevisions_nil
  shadow := rfl
  folded := by simp [init]
  baseline := fun t => rfl

lemma newestRevision_concat_of_invalid {row : IngestedRevision}
    (h : row.revision.structurallyValid = false) :
    newestRevision (rows ++ [row]) t = newestRevision rows t := by
  have hof : ofTicket t ((rows ++ [row]).map (·.revision))
      = ofTicket t (rows.map (·.revision)) := by
    simp [ofTicket, List.filter_append, h]
  rw [newestRevision, hof, newestRevision]

lemma Folding.commit {s : State} (h : Folding s) {row : IngestedRevision} {s' : State}
    (hdup : s.committed.any (sameRevision row) = false)
    (htime : row.revision.structurallyValid = true → s.master.lastProjectedIngestId < row.id)
    (hshadow : unshadowed s.master.lastProjectedIngestId (s.committed ++ [row]) = true)
    (hcommitted : s'.committed = s.committed ++ [row]) (hmaster : s'.master = s.master)
    (hfolded : s'.folded = s.folded) : Folding s' where
  distinct := by
    rw [hcommitted]
    exact distinctRevisions_concat h.distinct hdup
  shadow := by
    rw [hcommitted, hmaster]
    exact hshadow
  folded := by
    intro row' hrow' hid hvalid
    rw [hcommitted] at hrow'
    rw [hmaster] at hid
    rw [hfolded]
    rcases List.mem_append.mp hrow' with hold | hnew
    · exact h.folded row' hold hid hvalid
    · obtain rfl := List.mem_singleton.mp hnew
      have habove := htime hvalid
      omega
  baseline := by
    intro t
    rw [hmaster, hcommitted, h.baseline t]
    -- a row at or below the watermark is malformed
    have hconsumed : newestRevision
        (consumed s.master.lastProjectedIngestId (s.committed ++ [row])) t
          = newestRevision (consumed s.master.lastProjectedIngestId s.committed) t := by
      rw [consumed, List.filter_append]
      by_cases hid : row.id ≤ s.master.lastProjectedIngestId
      · have hinvalid : row.revision.structurallyValid = false := by
          rw [Bool.eq_false_iff]
          intro hvalid
          have habove := htime hvalid
          omega
        have hkept : [row].filter (fun row => decide (row.id ≤ s.master.lastProjectedIngestId))
            = [row] := by simp [hid]
        rw [hkept, newestRevision_concat_of_invalid hinvalid]
        rfl
      · have hdropped : [row].filter
            (fun row => decide (row.id ≤ s.master.lastProjectedIngestId)) = [] := by simp [hid]
        rw [hdropped, List.append_nil]
        rfl
    rw [hconsumed]

lemma Folding.project {s : State} (h : Folding s) {now : Time} {poll : Poll} {s' : State}
    (hnew : newRows s.master.lastProjectedIngestId s.committed ≠ [])
    (hpoll : storeSnapshot now (passOverlay s.committed s.master) = .ok poll)
    (hcommitted : s'.committed = s.committed)
    (hmaster : s'.master = projectedMaster now s.committed poll s.master)
    (hfolded : s'.folded = s.folded ++ newRows s.master.lastProjectedIngestId s.committed) :
    Folding s' := by
  have hle : ∀ row ∈ s'.committed, row.id ≤ s'.master.lastProjectedIngestId := by
    intro row hrow
    rw [hcommitted] at hrow
    rw [hmaster]
    exact id_le_projected now poll hnew hrow
  have hall : consumed s'.master.lastProjectedIngestId s'.committed = s'.committed :=
    List.filter_eq_self.mpr fun row hrow => by simpa using hle row hrow
  exact {
    distinct := by
      rw [hcommitted]
      exact h.distinct
    shadow := by
      rw [unshadowed, List.all_eq_true]
      intro row hrow
      have hnot : ¬ s'.master.lastProjectedIngestId < row.id := not_lt.mpr (hle row hrow)
      simp [hnot]
    folded := by
      intro row hrow _ hvalid
      rw [hcommitted] at hrow
      rw [hfolded, List.mem_append]
      rcases Nat.lt_or_ge s.master.lastProjectedIngestId row.id with hid | hid
      · exact Or.inr (mem_newRows.mpr ⟨hrow, hid⟩)
      · exact Or.inl (h.folded row hrow hid hvalid)
    baseline := by
      intro t
      rw [hall, hcommitted, hmaster, index_projected hpoll,
        newestRevision_of_pass h.distinct h.shadow t]
      cases hwin : passWinners s.master.lastProjectedIngestId s.committed t with
      | some r =>
        rw [overlayAt_of_some hwin]
        rfl
      | none =>
        rw [overlayAt_of_none hwin, h.baseline t, Option.none_or]
        -- an untouched position is stored again
        cases hnewest : newestRevision (consumed s.master.lastProjectedIngestId s.committed) t with
        | none => rfl
        | some r =>
          obtain ⟨row, -, rfl, -⟩ := mem_ofTicket_rows.mp (mem_of_latest hnewest)
          cases hobs : row.revision.toObservedPosition with
          | none => simp [hobs]
          | some p => simp [hobs, storePosition_of_row hobs] }

lemma folding_step (s : State) (a : IngestAction) (h : Folding s)
    (htime : commitInTime s a = true) : Folding (ingestStep s a) := by
  cases a with
  | insert r =>
    simp only [ingestStep]
    split_ifs
    · split <;> exact ⟨h.distinct, h.shadow, h.folded, h.baseline⟩
    · exact h
  | abort id => exact ⟨h.distinct, h.shadow, h.folded, h.baseline⟩
  | commit id =>
    cases hfind : s.inFlight.find? fun row => row.id = id with
    | none =>
      simp only [ingestStep, hfind]
      exact h
    | some row =>
      cases hdup : s.committed.any (sameRevision row) with
      | true =>
        simp only [ingestStep, hfind, hdup, if_true]
        exact ⟨h.distinct, h.shadow, h.folded, h.baseline⟩
      | false =>
        simp only [commitInTime, hfind, hdup, Option.all_some, Bool.false_or, Bool.and_eq_true,
          Bool.or_eq_true, Bool.not_eq_true', decide_eq_true_eq] at htime
        obtain ⟨habove, hshadow⟩ := htime
        refine h.commit hdup (fun hvalid => ?_) hshadow ?_ ?_ ?_
        · rcases habove with hinvalid | habove
          · rw [hvalid] at hinvalid
            cases hinvalid
          · exact habove
        all_goals simp [ingestStep, hfind, hdup]
  | project now =>
    rcases ingestStep_project s now with ⟨-, hsame⟩ | ⟨hnew, poll, hpoll, hstep⟩
    · rw [hsame]
      exact h
    · rw [hstep]
      exact h.project hnew hpoll rfl rfl rfl

lemma id_le_after_pass (s : State) (now : Time) {row : IngestedRevision}
    (hrow : row ∈ s.committed) :
    row.id ≤ (ingestStep s (.project now)).master.lastProjectedIngestId := by
  rcases ingestStep_project s now with ⟨hnew, hsame⟩ | ⟨hnew, poll, hpoll, hstep⟩
  · rw [hsame]
    exact newRows_eq_nil_iff.mp hnew row hrow
  · rw [hstep]
    exact id_le_projected now poll hnew hrow

lemma committed_after_pass (s : State) (now : Time) :
    (ingestStep s (.project now)).committed = s.committed := by
  rcases ingestStep_project s now with ⟨-, hsame⟩ | ⟨-, poll, -, hstep⟩
  · rw [hsame]
  · rw [hstep]

/-- **No revision is lost to the watermark** in a run whose commits are all in time: after one more
pass every well-formed committed row has been folded, and the baseline is the fold of all rows. -/
theorem complete_of_commits_in_time (as : List IngestAction)
    (h : StepsMeet ingestStep (fun s a => commitInTime s a = true) init as) :
    CompleteAfterPass (run ingestStep init as) := by
  have hfolding : Folding (run ingestStep init as) :=
    run_invariant_of_meets folding_step folding_init h
  intro now
  set s := run ingestStep init as with hs
  have hafter : Folding (ingestStep s (.project now)) := folding_step s (.project now) hfolding rfl
  have hrows := committed_after_pass s now
  constructor
  · intro row hrow hvalid
    exact hafter.folded row (by rw [hrows]; exact hrow) (id_le_after_pass s now hrow) hvalid
  · intro t
    have hall : consumed (ingestStep s (.project now)).master.lastProjectedIngestId
        (ingestStep s (.project now)).committed = s.committed := by
      rw [hrows]
      exact List.filter_eq_self.mpr fun row hrow => by
        simpa using id_le_after_pass s now hrow
    rw [hafter.baseline t, hall, index_foldOfAll]

/-! ### A row that commits too late -/

/-- A revision of the ticket `t`. -/
def openRevision (t : ℤ) : PositionRevision :=
  { ticket := t, revision := 1, observedTime := some 0, brokerEventTime := none
    closed := false, symbol := "EURUSD", side := "BUY", volume := 1, sl := none, tp := none
    priceOpen := none, openTime := none, originalVolume := none }

/-- Two transactions, each with one row, that commit in the order of their ids. -/
def inOrder : List IngestAction :=
  [.insert (openRevision 7), .insert (openRevision 8), .commit 1, .commit 2, .project 10]

/-- The same two transactions: the second one commits and is consumed before the first one. -/
def overtaken : List IngestAction :=
  [.insert (openRevision 7), .insert (openRevision 8), .commit 2, .project 10, .commit 1]

/-- Commits in the order of the ids are in time. -/
theorem complete_of_commits_in_time_inOrder : CompleteAfterPass (run ingestStep init inOrder) :=
  complete_of_commits_in_time inOrder (by decide +kernel)

/-- **A row may be lost to the watermark.**  No transaction is open any more, and the row of the
first one is never folded. -/
theorem overtaken_row_is_lost : (run ingestStep init overtaken).inFlight = [] ∧
    ¬ CompleteAfterPass (run ingestStep init overtaken) := by
  refine ⟨by decide +kernel, fun h => ?_⟩
  have hfolded := (h 20).1
  revert hfolded
  decide +kernel

end SharedLedger
end GuvFX
