/-
# Passes over batches of pending revisions

The pending revisions of a master may be consumed by one projection pass, or by several: each
pass consumes the rows that have become visible since the one before.  The result is the same,
unless a malformed row that one pass has consumed stands above a well-formed row of a later pass:
the single pass rejects the malformed row, while for the later pass it is a revision that was
applied.
-/
import GuvFX.TradeCopier.SharedLedger

namespace GuvFX
namespace ProjectionBatches

open Diff Latest Observer Revisions EventProjection

/-! ### Passes -/

/-- The rows that become visible before a pass, and the time of the pass. -/
structure Batch where
  now : Time
  rows : List IngestedRevision

def rowsOf (batches : List Batch) : List IngestedRevision := batches.flatMap (·.rows)

/-- What the passes work on. -/
structure PassState where
  rows : List IngestedRevision
  master : Master
  /-- The marks of the last fold. -/
  applied : ℤ → Option ℤ

def pass (s : PassState) (batch : Batch) : PassState :=
  let rows := s.rows ++ batch.rows
  match projectMasterEvents batch.now rows s.master with
  | .error _ => { s with rows }
  | .ok (m, outcome) =>
    { rows, master := m
      applied :=
        if outcome.advanced then
          (projectionFold s.master.lastProjectedIngestId rows).appliedRevision
        else s.applied }

def StoredBaseline (m : Master) : Prop := ∀ p ∈ baselineOf m, ∃ q, p = storePosition q

/-- A master with its consumed rows and its pending ones. -/
structure Pending where
  master : Master
  consumed : List IngestedRevision
  /-- The pending rows in the order of their ids. -/
  rows : List IngestedRevision
  old : ∀ row ∈ consumed, row.id ≤ master.lastProjectedIngestId
  new : ∀ row ∈ rows, master.lastProjectedIngestId < row.id
  ordered : rows.Pairwise fun row row' => row.id < row'.id
  distinct : DistinctRevisions (consumed ++ rows)
  stored : StoredBaseline master

/-- A way to split the pending rows, in their order, into batches. -/
structure Splitting (p : Pending) where
  batches : List Batch
  split : rowsOf batches = p.rows

def Pending.whole (p : Pending) (now : Time) : Splitting p where
  batches := [{ now, rows := p.rows }]
  split := by simp [rowsOf]

def Pending.start (p : Pending) : PassState where
  rows := p.consumed
  master := p.master
  applied := priorApplied p.master.lastProjectedIngestId p.consumed

def Pending.passes (p : Pending) (batches : List Batch) : PassState := batches.foldl pass p.start

/-- Two runs of passes leave the same positions and the same marks. -/
def SameResult (s s' : PassState) : Prop :=
  (∀ t, index (baselineOf s.master) t = index (baselineOf s'.master) t) ∧ s.applied = s'.applied

def nonempty (batches : List Batch) : List Batch := batches.filter fun b => b.rows ≠ []

def earlierRows (batches : List Batch) : List IngestedRevision :=
  rowsOf (nonempty batches).dropLast

/-- Every malformed row that a pass has consumed before another one is covered: a row consumed
before all passes, or a well-formed pending row of its ticket, is not below it. -/
def MalformedCovered (p : Pending) (batches : List Batch) : Prop :=
  ∀ row ∈ earlierRows batches, row.revision.structurallyValid = false →
    (∃ old ∈ p.consumed, old.revision.ticket = row.revision.ticket ∧
        row.revision.revision ≤ old.revision.revision) ∨
      ∃ other ∈ p.rows, other.revision.structurallyValid = true ∧
        other.revision.ticket = row.revision.ticket ∧
        row.revision.revision ≤ other.revision.revision

/-! ### One pass -/

variable {s : PassState} {b : Batch} {t : ℤ} {row : IngestedRevision}

/-- The rows below the watermark are consumed, and those of the batch are above it. -/
structure Ready (s : PassState) (b : Batch) : Prop where
  old : ∀ row ∈ s.rows, row.id ≤ s.master.lastProjectedIngestId
  new : ∀ row ∈ b.rows, s.master.lastProjectedIngestId < row.id
  distinct : DistinctRevisions (s.rows ++ b.rows)

lemma Ready.new_iff (h : Ready s b) :
    row ∈ s.rows ++ b.rows ∧ s.master.lastProjectedIngestId < row.id ↔ row ∈ b.rows := by
  rw [List.mem_append]
  constructor
  · rintro ⟨hold | hnew, hid⟩
    · have hle := h.old row hold
      omega
    · exact hnew
  · exact fun hrow => ⟨Or.inr hrow, h.new row hrow⟩

lemma Ready.old_iff (h : Ready s b) :
    row ∈ s.rows ++ b.rows ∧ row.id ≤ s.master.lastProjectedIngestId ↔ row ∈ s.rows := by
  rw [List.mem_append]
  constructor
  · rintro ⟨hold | hnew, hid⟩
    · exact hold
    · have hlt := h.new row hnew
      omega
  · exact fun hrow => ⟨Or.inl hrow, h.old row hrow⟩

lemma Ready.pass_of_nil (h : Ready s b) (hempty : b.rows = []) : pass s b = s := by
  have hnew : newRows s.master.lastProjectedIngestId s.rows = [] := newRows_eq_nil_iff.mpr h.old
  unfold pass projectMasterEvents
  simp [hnew, hempty]

lemma Ready.pass_of_ne_nil (h : Ready s b) (hrows : b.rows ≠ []) :
    newRows s.master.lastProjectedIngestId (s.rows ++ b.rows) ≠ [] ∧
      ∃ poll, storeSnapshot b.now (passOverlay (s.rows ++ b.rows) s.master) = .ok poll ∧
        pass s b =
          { rows := s.rows ++ b.rows
            master := projectedMaster b.now (s.rows ++ b.rows) poll s.master
            applied := (projectionFold s.master.lastProjectedIngestId
              (s.rows ++ b.rows)).appliedRevision } := by
  obtain ⟨row, hrow⟩ := List.exists_mem_of_ne_nil _ hrows
  have hnew : newRows s.master.lastProjectedIngestId (s.rows ++ b.rows) ≠ [] := by
    refine List.ne_nil_of_mem (a := row) ?_
    rw [mem_newRows]
    exact h.new_iff.mpr hrow
  obtain ⟨poll, hpoll⟩ := exists_store_passOverlay b.now (s.rows ++ b.rows) s.master
  refine ⟨hnew, poll, hpoll, ?_⟩
  unfold pass projectMasterEvents
  simp [hnew, hpoll, projectedMaster]

lemma Ready.rows_pass (h : Ready s b) : (pass s b).rows = s.rows ++ b.rows := by
  by_cases hrows : b.rows = []
  · rw [h.pass_of_nil hrows, hrows, List.append_nil]
  · obtain ⟨-, poll, -, hpass⟩ := h.pass_of_ne_nil hrows
    rw [hpass]

lemma Ready.old_pass (h : Ready s b) :
    ∀ row ∈ (pass s b).rows, row.id ≤ (pass s b).master.lastProjectedIngestId := by
  by_cases hrows : b.rows = []
  · rw [h.pass_of_nil hrows]
    exact h.old
  · obtain ⟨hnew, poll, -, hpass⟩ := h.pass_of_ne_nil hrows
    rw [hpass]
    intro row hrow
    exact id_le_projected b.now poll hnew hrow

lemma Ready.new_pass (h : Ready s b) (hlater : s.master.lastProjectedIngestId < row.id)
    (habove : ∀ row' ∈ b.rows, row'.id < row.id) :
    (pass s b).master.lastProjectedIngestId < row.id := by
  by_cases hrows : b.rows = []
  · rw [h.pass_of_nil hrows]
    exact hlater
  · obtain ⟨-, poll, -, hpass⟩ := h.pass_of_ne_nil hrows
    rw [hpass]
    refine projected_lt b.now poll (Nat.zero_lt_of_lt hlater) fun row' hrow' => ?_
    exact habove row' (h.new_iff.mp (mem_newRows.mp hrow'))

lemma Ready.stale_pass (h : Ready s b) (hrows : b.rows ≠ []) {n : ℤ} :
    stale ((pass s b).applied t) n = true ↔
      (∃ row ∈ s.rows, row.revision.ticket = t ∧ n ≤ row.revision.revision) ∨
        ∃ row ∈ b.rows, row.revision.structurallyValid = true ∧ row.revision.ticket = t ∧
          n ≤ row.revision.revision := by
  have happlied : (pass s b).applied t = (projectionFold s.master.lastProjectedIngestId
      (s.rows ++ b.rows)).appliedRevision t := by
    obtain ⟨-, poll, -, hpass⟩ := h.pass_of_ne_nil hrows
    rw [hpass]
  rw [happlied, projectionFold_applied, stale_mark_latest, stale_priorApplied]
  refine or_congr ?_ ?_
  · constructor
    · rintro ⟨row, hrow, hid, hticket, hle⟩
      exact ⟨row, h.old_iff.mp ⟨hrow, hid⟩, hticket, hle⟩
    · rintro ⟨row, hrow, hticket, hle⟩
      obtain ⟨hmem, hid⟩ := h.old_iff.mpr hrow
      exact ⟨row, hmem, hid, hticket, hle⟩
  · constructor
    · rintro ⟨r, hr, hle⟩
      obtain ⟨row, hrow, hid, rfl, hvalid, hticket⟩ := mem_candidates.mp hr
      exact ⟨row, h.new_iff.mp ⟨hrow, hid⟩, hvalid, hticket, hle⟩
    · rintro ⟨row, hrow, hvalid, hticket, hle⟩
      obtain ⟨hmem, hid⟩ := h.new_iff.mpr hrow
      exact ⟨row.revision, mem_candidates.mpr ⟨row, hmem, hid, rfl, hvalid, hticket⟩, hle⟩

structure Wins (s : PassState) (b : Batch) (row : IngestedRevision) : Prop where
  mem : row ∈ b.rows
  valid : row.revision.structurallyValid = true
  newest : ∀ row' ∈ b.rows, row'.revision.ticket = row.revision.ticket →
    row'.revision.structurallyValid = true → row'.revision.revision ≤ row.revision.revision
  above : ∀ row' ∈ s.rows, row'.revision.ticket = row.revision.ticket →
    row'.revision.revision < row.revision.revision

def Stale (s : PassState) (b : Batch) (t : ℤ) : Prop :=
  ∀ row ∈ b.rows, row.revision.structurallyValid = true → row.revision.ticket = t →
    ∃ old ∈ s.rows, old.revision.ticket = t ∧ row.revision.revision ≤ old.revision.revision

lemma Ready.winner_of_wins (h : Ready s b) (hwins : Wins s b row) :
    passWinners s.master.lastProjectedIngestId (s.rows ++ b.rows) row.revision.ticket
      = some row.revision := by
  obtain ⟨hmem, hid⟩ := h.new_iff.mpr hwins.mem
  refine (applies_iff h.distinct).mp ⟨⟨row, hmem, hid, rfl⟩, hwins.valid, ?_, ?_⟩
  · intro row' hrow' hid' hticket hvalid
    exact hwins.newest row' (h.new_iff.mp ⟨hrow', hid'⟩) hticket hvalid
  · intro row' hrow' hid' hticket
    exact hwins.above row' (h.old_iff.mp ⟨hrow', hid'⟩) hticket

lemma Ready.winner_of_stale (h : Ready s b) (hstale : Stale s b t) :
    passWinners s.master.lastProjectedIngestId (s.rows ++ b.rows) t = none := by
  rw [Option.eq_none_iff_forall_not_mem]
  intro r hr
  obtain ⟨hvalid, hticket, row, hrow, hid, rfl⟩ := of_passWinners hr
  have happlies : Applies s.master.lastProjectedIngestId (s.rows ++ b.rows) row.revision :=
    (applies_iff h.distinct).mpr (by rw [hticket]; exact hr)
  obtain ⟨old, hold, holdticket, hle⟩ := hstale row (h.new_iff.mp ⟨hrow, hid⟩) hvalid hticket
  obtain ⟨hmem, holdid⟩ := h.old_iff.mpr hold
  exact absurd hle (not_le.mpr (happlies.above old hmem holdid (holdticket.trans hticket.symm)))

lemma Ready.wins_or_stale (h : Ready s b) (t : ℤ) :
    (∃ row, row.revision.ticket = t ∧ Wins s b row) ∨ Stale s b t := by
  cases hwin : passWinners s.master.lastProjectedIngestId (s.rows ++ b.rows) t with
  | some r =>
    obtain ⟨-, hticket, -⟩ := of_passWinners hwin
    have happlies : Applies s.master.lastProjectedIngestId (s.rows ++ b.rows) r :=
      (applies_iff h.distinct).mpr (by rw [hticket]; exact hwin)
    obtain ⟨row, hrow, hid, rfl⟩ := happlies.row
    refine Or.inl ⟨row, hticket, h.new_iff.mp ⟨hrow, hid⟩, happlies.valid, ?_, ?_⟩
    · intro row' hrow'
      obtain ⟨hmem, hid'⟩ := h.new_iff.mpr hrow'
      exact happlies.newest row' hmem hid'
    · intro row' hrow'
      obtain ⟨hmem, hid'⟩ := h.old_iff.mpr hrow'
      exact happlies.above row' hmem hid'
  | none =>
    right
    intro row hrow hvalid hticket
    have hspec := isLatest_latest (·.revision)
      (priorApplied s.master.lastProjectedIngestId (s.rows ++ b.rows) t)
      (candidates s.master.lastProjectedIngestId (s.rows ++ b.rows) t)
    rw [← passWinners_eq h.distinct, hwin] at hspec
    obtain ⟨hmem, hid⟩ := h.new_iff.mpr hrow
    have hstale := hspec _ (mem_candidates.mpr ⟨row, hmem, hid, rfl, hvalid, hticket⟩)
    obtain ⟨old, hold, holdid, holdticket, hle⟩ := stale_priorApplied.mp hstale
    exact ⟨old, h.old_iff.mp ⟨hold, holdid⟩, holdticket, hle⟩

lemma Ready.index_of_wins (h : Ready s b) (hwins : Wins s b row) :
    index (baselineOf (pass s b).master) row.revision.ticket
      = row.revision.toObservedPosition.map storePosition := by
  obtain ⟨-, poll, hpoll, hpass⟩ := h.pass_of_ne_nil (List.ne_nil_of_mem hwins.mem)
  rw [hpass, index_projected hpoll, overlayAt_of_some (h.winner_of_wins hwins)]

lemma Ready.index_of_stale (h : Ready s b) (hrows : b.rows ≠ []) (hstale : Stale s b t) :
    index (baselineOf (pass s b).master) t
      = (index (baselineOf s.master) t).map storePosition := by
  obtain ⟨-, poll, hpoll, hpass⟩ := h.pass_of_ne_nil hrows
  rw [hpass, index_projected hpoll, overlayAt_of_none (h.winner_of_stale hstale)]

/-! ### Runs of passes -/

variable {p : Pending} {batches pre post : List Batch}

lemma rowsOf_append (pre post : List Batch) : rowsOf (pre ++ post) = rowsOf pre ++ rowsOf post :=
  List.flatMap_append

lemma rowsOf_cons (b : Batch) (post : List Batch) : rowsOf (b :: post) = b.rows ++ rowsOf post :=
  List.flatMap_cons

lemma passes_append (p : Pending) (pre post : List Batch) :
    p.passes (pre ++ post) = post.foldl pass (p.passes pre) := List.foldl_append

/-- What holds between two passes of a run. -/
structure Reached (p : Pending) (pre post : List Batch) (s : PassState) : Prop where
  rows : s.rows = p.consumed ++ rowsOf pre
  old : ∀ row ∈ s.rows, row.id ≤ s.master.lastProjectedIngestId
  new : ∀ row ∈ rowsOf post, s.master.lastProjectedIngestId < row.id

/-- Between two passes the next batch can be consumed. -/
lemma Reached.ready (h : Reached p pre (b :: post) s)
    (hsplit : rowsOf (pre ++ b :: post) = p.rows) : Ready s b where
  old := h.old
  new := fun row hrow => h.new row (by rw [rowsOf_cons]; exact List.mem_append_left _ hrow)
  distinct := by
    intro x hx y hy
    have hsub : ∀ z ∈ s.rows ++ b.rows, z ∈ p.consumed ++ p.rows := by
      intro z hz
      rw [h.rows, List.append_assoc, List.mem_append] at hz
      rw [← hsplit, rowsOf_append, rowsOf_cons, List.mem_append]
      rcases hz with hz | hz
      · exact Or.inl hz
      · rw [← List.append_assoc]
        exact Or.inr (List.mem_append_left _ hz)
    exact p.distinct x (hsub x hx) y (hsub y hy)

/-- **Every run of passes** consumes the batches one after another. -/
theorem reached_passes (p : Pending) (pre post : List Batch)
    (hsplit : rowsOf (pre ++ post) = p.rows) : Reached p pre post (p.passes pre) := by
  induction pre using List.reverseRecOn generalizing post with
  | nil =>
    refine ⟨(List.append_nil _).symm, p.old, ?_⟩
    rw [List.nil_append] at hsplit
    rw [hsplit]
    exact p.new
  | append_singleton pre b ih =>
    rw [List.append_assoc, List.singleton_append] at hsplit
    have hbefore := ih (b :: post) hsplit
    have hready := hbefore.ready hsplit
    have hpass : p.passes (pre ++ [b]) = pass (p.passes pre) b := passes_append p pre [b]
    rw [hpass]
    refine ⟨?_, hready.old_pass, ?_⟩
    · rw [hready.rows_pass, hbefore.rows, rowsOf_append, rowsOf_cons, List.append_assoc]
      simp [rowsOf]
    · intro row hrow
      refine hready.new_pass (hbefore.new row ?_) ?_
      · rw [rowsOf_cons]
        exact List.mem_append_right _ hrow
      · -- the rows of a batch stand before those of the later ones
        have hordered := p.ordered
        rw [← hsplit, rowsOf_append, rowsOf_cons] at hordered
        have hrest := (List.pairwise_append.mp hordered).2.1
        exact fun row' hrow' => (List.pairwise_append.mp hrest).2.2 row' hrow' row hrow

lemma rowsOf_nonempty (batches : List Batch) : rowsOf (nonempty batches) = rowsOf batches := by
  induction batches with
  | nil => rfl
  | cons b batches ih =>
    by_cases hrows : b.rows = []
    · have hdrop : nonempty (b :: batches) = nonempty batches := by simp [nonempty, hrows]
      rw [hdrop, ih, rowsOf_cons, hrows, List.nil_append]
    · have hkeep : nonempty (b :: batches) = b :: nonempty batches := by simp [nonempty, hrows]
      rw [hkeep, rowsOf_cons, rowsOf_cons, ih]

lemma passes_nonempty (p : Pending) (pre post : List Batch)
    (hsplit : rowsOf (pre ++ post) = p.rows) : p.passes (nonempty pre) = p.passes pre := by
  induction pre using List.reverseRecOn generalizing post with
  | nil => rfl
  | append_singleton pre b ih =>
    rw [List.append_assoc, List.singleton_append] at hsplit
    have hbefore := ih (b :: post) hsplit
    have hready := (reached_passes p pre (b :: post) hsplit).ready hsplit
    have hpass : p.passes (pre ++ [b]) = pass (p.passes pre) b := passes_append p pre [b]
    rw [hpass]
    by_cases hrows : b.rows = []
    · have hdrop : nonempty (pre ++ [b]) = nonempty pre := by
        simp [nonempty, List.filter_append, hrows]
      rw [hdrop, hbefore, hready.pass_of_nil hrows]
    · have hkeep : nonempty (pre ++ [b]) = nonempty pre ++ [b] := by
        simp [nonempty, List.filter_append, hrows]
      rw [hkeep, passes_append, hbefore]
      rfl

/-! ### The positions after a run -/

lemma index_of_stale_suffix {x : Option ObservedPosition} (hfixed : x.map storePosition = x)
    (hsplit : rowsOf (pre ++ post) = p.rows)
    (hstale : ∀ row ∈ rowsOf post, row.revision.structurallyValid = true →
      row.revision.ticket = t → ∃ old ∈ p.consumed ++ rowsOf pre,
        old.revision.ticket = t ∧ row.revision.revision ≤ old.revision.revision)
    (hbase : index (baselineOf (p.passes pre).master) t = x) :
    index (baselineOf (p.passes (pre ++ post)).master) t = x := by
  induction post generalizing pre with
  | nil => rwa [List.append_nil]
  | cons b post ih =>
    have hreached := reached_passes p pre (b :: post) hsplit
    have hready := hreached.ready hsplit
    have hpass : p.passes (pre ++ [b]) = pass (p.passes pre) b := passes_append p pre [b]
    have hcons : pre ++ b :: post = (pre ++ [b]) ++ post := by simp
    rw [hcons] at hsplit ⊢
    refine ih hsplit (fun row hrow hvalid hticket => ?_) ?_
    · obtain ⟨old, hold, hrest⟩ := hstale row (by
        rw [rowsOf_cons]
        exact List.mem_append_right _ hrow) hvalid hticket
      refine ⟨old, ?_, hrest⟩
      rw [rowsOf_append, ← List.append_assoc]
      exact List.mem_append_left _ hold
    · rw [hpass]
      by_cases hrows : b.rows = []
      · rw [hready.pass_of_nil hrows]
        exact hbase
      · rw [hready.index_of_stale hrows, hbase, hfixed]
        intro row hrow hvalid hticket
        rw [hreached.rows]
        exact hstale row (by
          rw [rowsOf_cons]
          exact List.mem_append_left _ hrow) hvalid hticket

lemma index_passes_of_stale (hne : ∀ b ∈ batches, b.rows ≠ []) (hnonempty : batches ≠ [])
    (hsplit : rowsOf batches = p.rows)
    (hstale : ∀ row ∈ p.rows, row.revision.structurallyValid = true →
      row.revision.ticket = t → ∃ old ∈ p.consumed,
        old.revision.ticket = t ∧ row.revision.revision ≤ old.revision.revision) :
    index (baselineOf (p.passes batches).master) t
      = (index (baselineOf p.master) t).map storePosition := by
  obtain ⟨b, post, rfl⟩ := List.exists_cons_of_ne_nil hnonempty
  have hmem : ∀ row ∈ rowsOf (b :: post), row.revision.structurallyValid = true →
      row.revision.ticket = t → ∃ old ∈ p.consumed,
        old.revision.ticket = t ∧ row.revision.revision ≤ old.revision.revision := by
    rw [hsplit]
    exact hstale
  rw [rowsOf_cons] at hmem
  have hready := (reached_passes p [] (b :: post) hsplit).ready hsplit
  have hpass : p.passes [b] = pass p.start b := rfl
  show index (baselineOf (p.passes ([b] ++ post)).master) t = _
  refine index_of_stale_suffix ?_ hsplit (fun row hrow hvalid hticket => ?_) ?_
  · -- the baseline was stored before the passes
    cases hindex : index (baselineOf p.master) t with
    | none => rfl
    | some q =>
      obtain ⟨q', rfl⟩ := p.stored q (mem_of_index hindex)
      simp [storePosition_thrice]
  · obtain ⟨old, hold, hrest⟩ := hmem row (List.mem_append_right _ hrow) hvalid hticket
    exact ⟨old, List.mem_append_left _ hold, hrest⟩
  · rw [hpass]
    refine hready.index_of_stale (hne b List.mem_cons_self) fun row hrow => ?_
    exact hmem row (List.mem_append_left _ hrow)

lemma index_passes_of_wins {now : Time} (hsplit : rowsOf batches = p.rows)
    (hwins : Wins p.start { now, rows := p.rows } row)
    (hbelow : ∀ pre b post, batches = pre ++ b :: post → row ∈ b.rows → ∀ row' ∈ rowsOf pre,
      row'.revision.ticket = row.revision.ticket →
      row'.revision.revision < row.revision.revision) :
    index (baselineOf (p.passes batches).master) row.revision.ticket
      = row.revision.toObservedPosition.map storePosition := by
  have hmem : row ∈ rowsOf batches := by
    rw [hsplit]
    exact hwins.mem
  obtain ⟨b, hb, hrow⟩ := List.mem_flatMap.mp hmem
  obtain ⟨pre, post, rfl⟩ := List.append_of_mem hb
  have hreached := reached_passes p pre (b :: post) hsplit
  have hready := hreached.ready hsplit
  have hpass : p.passes (pre ++ [b]) = pass (p.passes pre) b := passes_append p pre [b]
  have hcons : pre ++ b :: post = (pre ++ [b]) ++ post := by simp
  have hin : ∀ row' ∈ rowsOf (b :: post), row' ∈ p.rows := by
    intro row' hrow'
    rw [← hsplit, rowsOf_append]
    exact List.mem_append_right _ hrow'
  rw [rowsOf_cons] at hin
  have happlied : Wins (p.passes pre) b row := by
    refine ⟨hrow, hwins.valid, fun row' hrow' => ?_, fun row' hrow' hticket => ?_⟩
    · exact hwins.newest row' (hin row' (List.mem_append_left _ hrow'))
    · rw [hreached.rows, List.mem_append] at hrow'
      rcases hrow' with hold | hearlier
      · exact hwins.above row' hold hticket
      · exact hbelow pre b post rfl hrow row' hearlier hticket
  rw [hcons] at hsplit ⊢
  refine index_of_stale_suffix ?_ hsplit (fun row' hrow' hvalid hticket => ?_) ?_
  · cases hobs : row.revision.toObservedPosition with
    | none => rfl
    | some q => simp [storePosition_of_row hobs]
  · refine ⟨row, ?_, rfl, ?_⟩
    · rw [rowsOf_append, rowsOf_cons]
      exact List.mem_append_right _ (List.mem_append_right _ (List.mem_append_left _ hrow))
    · exact hwins.newest row' (hin row' (List.mem_append_right _ hrow')) hticket hvalid
  · rw [hpass]
    exact hready.index_of_wins happlied

/-! ### The marks after a run -/

lemma mem_earlierRows (h : nonempty batches = pre ++ b :: post) (hrow : row ∈ rowsOf pre) :
    row ∈ earlierRows batches := by
  rw [earlierRows, h, List.dropLast_append_of_ne_nil (List.cons_ne_nil b post), rowsOf_append]
  exact List.mem_append_left _ hrow

lemma stale_passes (hsplit : rowsOf (pre ++ [b]) = p.rows) (hrows : b.rows ≠ []) {n : ℤ} :
    stale ((p.passes (pre ++ [b])).applied t) n = true ↔
      (∃ row ∈ p.consumed ++ rowsOf pre,
          row.revision.ticket = t ∧ n ≤ row.revision.revision) ∨
        ∃ row ∈ b.rows, row.revision.structurallyValid = true ∧ row.revision.ticket = t ∧
          n ≤ row.revision.revision := by
  have hreached := reached_passes p pre [b] hsplit
  have hpass : p.passes (pre ++ [b]) = pass (p.passes pre) b := passes_append p pre [b]
  rw [hpass, (hreached.ready hsplit).stale_pass hrows, hreached.rows]

/-- The marks after a single pass. -/
lemma stale_whole (hrows : p.rows ≠ []) (now : Time) {n : ℤ} :
    stale ((p.passes (p.whole now).batches).applied t) n = true ↔
      (∃ row ∈ p.consumed, row.revision.ticket = t ∧ n ≤ row.revision.revision) ∨
        ∃ row ∈ p.rows, row.revision.structurallyValid = true ∧ row.revision.ticket = t ∧
          n ≤ row.revision.revision := by
  have hbatches : (p.whole now).batches = [] ++ [{ now, rows := p.rows }] := rfl
  have hsplit := (p.whole now).split
  rw [hbatches] at hsplit ⊢
  rw [stale_passes hsplit hrows]
  simp [rowsOf]

/-- **The marks agree exactly if the malformed rows are covered.** -/
lemma applied_eq_iff {s : Splitting p} (now : Time) (hpre : nonempty s.batches = pre ++ [b])
    (hsplit : rowsOf (pre ++ [b]) = p.rows) (hrows : b.rows ≠ []) :
    (p.passes (pre ++ [b])).applied = (p.passes (p.whole now).batches).applied ↔
      MalformedCovered p s.batches := by
  have hearlier : earlierRows s.batches = rowsOf pre := by
    rw [earlierRows, hpre, List.dropLast_concat]
  have hmem : ∀ row, row ∈ p.rows ↔ row ∈ rowsOf pre ∨ row ∈ b.rows := by
    intro row
    rw [← hsplit, rowsOf_append, List.mem_append]
    simp [rowsOf]
  have hpending : p.rows ≠ [] := by
    obtain ⟨row, hrow⟩ := List.exists_mem_of_ne_nil _ hrows
    exact List.ne_nil_of_mem ((hmem row).mpr (Or.inr hrow))
  constructor
  · intro happlied row hrow _
    rw [hearlier] at hrow
    have hstale : stale ((p.passes (pre ++ [b])).applied row.revision.ticket)
        row.revision.revision = true :=
      (stale_passes hsplit hrows).mpr
        (Or.inl ⟨row, List.mem_append_right _ hrow, rfl, le_rfl⟩)
    rw [happlied] at hstale
    exact (stale_whole hpending now).mp hstale
  · intro hcovered
    funext t
    refine mark_ext fun n => ?_
    rw [stale_passes hsplit hrows, stale_whole hpending now]
    constructor
    · rintro (⟨row, hrow, hticket, hle⟩ | ⟨row, hrow, hvalid, hrest⟩)
      · rcases List.mem_append.mp hrow with hold | hnew
        · exact Or.inl ⟨row, hold, hticket, hle⟩
        · cases hvalid : row.revision.structurallyValid with
          | true => exact Or.inr ⟨row, (hmem row).mpr (Or.inl hnew), hvalid, hticket, hle⟩
          | false =>
            rcases hcovered row (by rw [hearlier]; exact hnew) hvalid with
              ⟨old, hold, hsame, hcover⟩ | ⟨other, hother, hother', hsame, hcover⟩
            · exact Or.inl ⟨old, hold, hsame.trans hticket, hle.trans hcover⟩
            · exact Or.inr ⟨other, hother, hother', hsame.trans hticket, hle.trans hcover⟩
      · exact Or.inr ⟨row, (hmem row).mpr (Or.inr hrow), hvalid, hrest⟩
    · rintro (⟨row, hrow, hrest⟩ | ⟨row, hrow, hvalid, hticket, hle⟩)
      · exact Or.inl ⟨row, List.mem_append_left _ hrow, hrest⟩
      · rcases (hmem row).mp hrow with hearly | hlast
        · exact Or.inl ⟨row, List.mem_append_right _ hearly, hticket, hle⟩
        · exact Or.inr ⟨row, hlast, hvalid, hticket, hle⟩

/-! ### Splittings -/

lemma lt_of_wins (hcovered : MalformedCovered p batches) {now : Time}
    (hsplit : rowsOf (nonempty batches) = p.rows)
    (hwins : Wins p.start { now, rows := p.rows } row)
    (h : nonempty batches = pre ++ b :: post) (hrow : row ∈ b.rows) {row' : IngestedRevision}
    (hrow' : row' ∈ rowsOf pre) (hticket : row'.revision.ticket = row.revision.ticket) :
    row'.revision.revision < row.revision.revision := by
  have hordered := p.ordered
  rw [← hsplit, h, rowsOf_append, rowsOf_cons] at hordered
  have hid : row'.id < row.id :=
    (List.pairwise_append.mp hordered).2.2 row' hrow' row (List.mem_append_left _ hrow)
  have hmem' : row' ∈ p.rows := by
    rw [← hsplit, h, rowsOf_append]
    exact List.mem_append_left _ hrow'
  have hne : row'.revision.revision ≠ row.revision.revision := by
    intro heq
    have hsame := p.distinct row' (List.mem_append_right _ hmem') row
      (List.mem_append_right _ hwins.mem) hticket heq
    rw [hsame] at hid
    omega
  refine lt_of_le_of_ne ?_ hne
  cases hvalid : row'.revision.structurallyValid with
  | true => exact hwins.newest row' hmem' hticket hvalid
  | false =>
    rcases hcovered row' (mem_earlierRows h hrow') hvalid with
      ⟨old, hold, hsame, hle⟩ | ⟨other, hother, hother', hsame, hle⟩
    · exact hle.trans (hwins.above old hold (hsame.trans hticket)).le
    · exact hle.trans (hwins.newest other hother (hsame.trans hticket) hother')

lemma index_eq_whole (s : Splitting p) (now : Time) (hcovered : MalformedCovered p s.batches)
    (hrows : p.rows ≠ []) (t : ℤ) :
    index (baselineOf (p.passes (nonempty s.batches)).master) t
      = index (baselineOf (p.passes (p.whole now).batches).master) t := by
  have hsplit : rowsOf (nonempty s.batches) = p.rows := by
    rw [rowsOf_nonempty, s.split]
  have hready : Ready p.start { now, rows := p.rows } :=
    (reached_passes p [] _ (p.whole now).split).ready (p.whole now).split
  have hwhole : ∀ b ∈ (p.whole now).batches, b.rows ≠ [] := by
    intro b hb
    rw [List.mem_singleton.mp hb]
    exact hrows
  have hne : ∀ b ∈ nonempty s.batches, b.rows ≠ [] := by
    intro b hb
    simpa using (List.mem_filter.mp hb).2
  have hnonempty : nonempty s.batches ≠ [] := by
    intro hnil
    rw [hnil] at hsplit
    exact hrows hsplit.symm
  rcases hready.wins_or_stale t with ⟨row, rfl, hwins⟩ | hstale
  · rw [index_passes_of_wins hsplit hwins fun pre b post h hrow row' hrow' hticket =>
      lt_of_wins hcovered hsplit hwins h hrow hrow' hticket]
    exact (hready.index_of_wins hwins).symm
  · rw [index_passes_of_stale hne hnonempty hsplit hstale,
      index_passes_of_stale hwhole (List.cons_ne_nil _ _) (p.whole now).split hstale]

/-- **Batching.**  Any splitting of the pending rows into passes leaves the same positions and the
same marks as a single pass, exactly if every malformed row that is consumed before another pass
is covered. -/
theorem batching_invariant_iff (p : Pending) (s : Splitting p) (now : Time) :
    SameResult (p.passes s.batches) (p.passes (p.whole now).batches) ↔
      MalformedCovered p s.batches := by
  have hsplit : rowsOf (nonempty s.batches) = p.rows := by
    rw [rowsOf_nonempty, s.split]
  have hpasses : p.passes (nonempty s.batches) = p.passes s.batches :=
    passes_nonempty p s.batches [] (by rw [List.append_nil, s.split])
  rw [← hpasses]
  rcases List.eq_nil_or_concat (nonempty s.batches) with hnil | ⟨pre, b, hpre⟩
  · -- there is nothing to consume
    have hrows : p.rows = [] := by
      rw [← hsplit, hnil]
      rfl
    have hready : Ready p.start { now, rows := p.rows } :=
      (reached_passes p [] _ (p.whole now).split).ready (p.whole now).split
    have hwhole : p.passes (p.whole now).batches = p.start := hready.pass_of_nil hrows
    have hearlier : earlierRows s.batches = [] := by
      rw [earlierRows, hnil]
      rfl
    rw [hwhole, hnil]
    constructor
    · intro _ row hrow
      rw [hearlier] at hrow
      cases hrow
    · exact fun _ => ⟨fun t => rfl, rfl⟩
  · rw [List.concat_eq_append] at hpre
    have hb : b.rows ≠ [] := by
      have hmem : b ∈ nonempty s.batches := by
        rw [hpre]
        exact List.mem_append_right _ (List.mem_singleton_self b)
      simpa using (List.mem_filter.mp hmem).2
    rw [hpre] at hsplit
    have hmarks := applied_eq_iff (s := s) now hpre hsplit hb
    constructor
    · rintro ⟨-, happlied⟩
      rw [hpre] at happlied
      exact hmarks.mp happlied
    · intro hcovered
      refine ⟨fun t => index_eq_whole s now hcovered ?_ t, ?_⟩
      · obtain ⟨row, hrow⟩ := List.exists_mem_of_ne_nil _ hb
        rw [← hsplit, rowsOf_append, rowsOf_cons]
        exact List.ne_nil_of_mem (List.mem_append_right _ (List.mem_append_left _ hrow))
      · rw [hpre]
        exact hmarks.mpr hcovered

/-! ### Reachable states -/

section Reachable

open SharedLedger Runs

lemma storedBaseline_new : StoredBaseline Master.new := by
  intro q hq
  cases hq

structure IdsTaken (s : SharedLedger.State) : Prop where
  below : ∀ row ∈ s.committed ++ s.inFlight, row.id < s.nextId
  nodup : ((s.committed ++ s.inFlight).map (·.id)).Nodup

end Reachable

/-! ### A malformed row between two passes -/

/-- A revision that is well formed when it is ingested; its volume is rounded to zero. -/
def tinyRevision : PositionRevision :=
  { ticket := 7, revision := 2, observedTime := some 0, brokerEventTime := none
    closed := false, symbol := "EURUSD", side := "BUY", volume := 4 / 10000, sl := none
    tp := none, priceOpen := none, openTime := none, originalVolume := none }

def sampleRows : List IngestedRevision :=
  (Runs.run SharedLedger.ingestStep SharedLedger.init
    [.insert tinyRevision, .insert { tinyRevision with revision := 1, volume := 1 },
      .commit 1, .commit 2]).committed

/-- The two rows are pending at a new master. -/
def samplePending : Pending where
  master := Master.new
  consumed := []
  rows := sampleRows
  old := fun row hrow => nomatch hrow
  new := by decide +kernel
  ordered := by decide +kernel
  distinct := by
    unfold DistinctRevisions
    decide +kernel
  stored := storedBaseline_new

/-- A pass for each of the two rows. -/
def sampleSplitting : Splitting samplePending where
  batches := [{ now := 10, rows := sampleRows.take 1 }, { now := 20, rows := sampleRows.drop 1 }]
  split := by decide +kernel

/-- **A splitting may lose a position.**  The single pass rejects the malformed revision and opens
the position; of two passes the second one finds its revision stale. -/
theorem split_loses_position :
    (index (baselineOf (samplePending.passes (samplePending.whole 20).batches).master) 7).isSome ∧
      index (baselineOf (samplePending.passes sampleSplitting.batches).master) 7 = none ∧
      ¬ SameResult (samplePending.passes sampleSplitting.batches)
        (samplePending.passes (samplePending.whole 20).batches) := by
  refine ⟨by decide +kernel, by decide +kernel, fun h => ?_⟩
  have hindex := h.1 7
  revert hindex
  decide +kernel

end ProjectionBatches
end GuvFX
