/-
# Rows against the history of an account

The deals of an account become known one after the other, and each call of the ingestion sees some
of those that are known.  A row takes its volume from the snapshot that created it and everything
else from the last snapshot that listed its position.  So the rows agree with the complete history,
and a close that was recorded from all its deals stays as it is, when no position is scaled into
after its row was created, the first snapshot of a position lists all its opening deals, no snapshot
shows an open position as closed, and the snapshots after the recorded close leave out nothing that
counts for it.
-/
import GuvFX.Lib.Runs
import GuvFX.TradeIngest.Upserts

namespace GuvFX
namespace TradeIngest

open Decimal Firsts Runs

/-! ### Histories and calls -/

/-- The deals of the account that are known, oldest first, and its rows. -/
structure World where
  history : List Deal
  trades : Trades

inductive Action where
  | deal (d : Deal)
  | upsert (call : Call)

def step (cutover : Option Time) (w : World) : Action → World
  | .deal d => { w with history := w.history ++ [d] }
  | .upsert call => { w with trades := (upsertTrades cutover call w.trades).1.trades }

/-- An account without deals. -/
def start : World := { history := [], trades := fun _ => none }

/-- There are no reversals, and a snapshot lists deals that are known. -/
def Given (w : World) : Action → Prop
  | .deal d => d.isInout = false
  | .upsert call => ∀ d ∈ call.deals, d ∈ w.history

instance (w : World) : DecidablePred (Given w)
  | .deal d => inferInstanceAs (Decidable (d.isInout = false))
  | .upsert call => inferInstanceAs (Decidable (∀ d ∈ call.deals, d ∈ w.history))

/-- The deals that count for a position, each once. -/
def legs (deals : List Deal) (pid : String) : List Deal := firsts Deal.key (dealsOf deals pid)

/-- The row of a position has been written from all its deals, which close it. -/
def RecordedClosed (w : World) (pid : String) (t : Trade) : Prop :=
  ∃ dl ∈ t.writes, (∀ d ∈ dealsOf w.history pid, d ∈ dl) ∧ IsClosed (firsts Deal.key dl)

instance (w : World) (pid : String) (t : Trade) : Decidable (RecordedClosed w pid t) :=
  inferInstanceAs (Decidable (∃ dl ∈ t.writes, (∀ d ∈ dealsOf w.history pid, d ∈ dl) ∧
    IsClosed (firsts Deal.key dl)))

/-- After a call with the complete history every row holds the figures of its position. -/
def Converges (cutover : Option Time) (w : World) (call : Call) : Prop :=
  (∀ d ∈ w.history, d ∈ call.deals) → (upsertTrades cutover call w.trades).2 = true →
    ∀ pid t, (step cutover w (.upsert call)).trades pid = some t →
      (record w.history pid).map (fun p => p.toFigures.stored) = some t.figures

/-- A call does not change a close that was recorded from all its deals. -/
def KeepsCloses (cutover : Option Time) (w : World) (call : Call) : Prop :=
  ∀ pid t, w.trades pid = some t → RecordedClosed w pid t →
    ∃ t', (step cutover w (.upsert call)).trades pid = some t' ∧
      t'.figures.close = t.figures.close

/-! ### When rows follow the history -/

/-- The deal has a time and a ticket of its own, and a volume where it opens or closes; it opens a
position only before there is a row. -/
structure Opens (w : World) (d : Deal) : Prop where
  ticket : d.ticket.isSome
  fresh : ∀ e ∈ dealsOf w.history d.positionId, e.key ≠ d.key
  time : d.time.isSome
  volume : d.isIn ∨ d.isOut → 0 < d.volume
  first : d.isIn → w.trades d.positionId = none

/-- The snapshot lists a deal that opened the position before the cutover. -/
def ShowsBefore (cutover : Option Time) (call : Call) (pid : String) : Prop :=
  ∃ c ∈ cutover, ∃ d ∈ ins (dealsOf call.deals pid), ∃ t ∈ d.time, t < c

/-- What a snapshot must list of a position of which it lists an opening deal. -/
def Shows (cutover : Option Time) (w : World) (call : Call) (pid : String) : Prop :=
  match w.trades pid with
  | none =>
    ShowsBefore cutover call pid ∨ ∀ d ∈ ins (dealsOf w.history pid), d ∈ call.deals
  | some t =>
    (IsClosed (legs call.deals pid) → IsClosed (legs w.history pid)) ∧
      (RecordedClosed w pid t → ∀ d ∈ dealsOf w.history pid,
        d ∈ call.deals ∨ d.isOut = false ∧ d.commission = 0 ∧ d.swap = 0)

instance (cutover : Option Time) (w : World) (call : Call) (pid : String) :
    Decidable (Shows cutover w call pid) :=
  match h : w.trades pid with
  | none =>
    have : Decidable (ShowsBefore cutover call pid) :=
      inferInstanceAs (Decidable (∃ c ∈ cutover, ∃ d ∈ ins (dealsOf call.deals pid),
        ∃ t ∈ d.time, t < c))
    decidable_of_iff (ShowsBefore cutover call pid ∨
      ∀ d ∈ ins (dealsOf w.history pid), d ∈ call.deals) (by simp [Shows, h])
  | some t =>
    decidable_of_iff ((IsClosed (legs call.deals pid) → IsClosed (legs w.history pid)) ∧
      (RecordedClosed w pid t → ∀ d ∈ dealsOf w.history pid,
        d ∈ call.deals ∨ d.isOut = false ∧ d.commission = 0 ∧ d.swap = 0)) (by simp [Shows, h])

/-- The condition on a step under which rows follow the history. -/
def Follows (cutover : Option Time) (w : World) (a : Action) : Prop :=
  Given w a ∧
    match a with
    | .deal d => isPosition d.positionId → Opens w d
    | .upsert call =>
      ∀ pid, isPosition pid → ins (dealsOf call.deals pid) ≠ [] → Shows cutover w call pid

/-! ### What a row says of the history -/

variable {cutover : Option Time} {w : World} {call : Call} {history : List Deal} {pid : String}
  {t : Trade} {p : Position} {d : Deal}

/-- The known deals of a position can be told apart, and their figures make sense. -/
structure Plain (history : List Deal) (pid : String) : Prop where
  keyed : Keyed Deal.key (dealsOf history pid)
  named : Named Deal.key (dealsOf history pid)
  regular : Regular (dealsOf history pid)
  inouts : inouts (dealsOf history pid) = []

/-- The row of a position agrees with the known deals, as far as the next refresh will need it. -/
structure Fits (cutover : Option Time) (history : List Deal) (pid : String) (t : Trade) :
    Prop where
  position : isPosition pid
  opened : ins (legs history pid) ≠ []
  cutover : ∀ c ∈ cutover, ∀ d ∈ ins (dealsOf history pid), ∀ ot ∈ d.time, c ≤ ot
  volume : t.volume = quantize 2 (inVol (legs history pid))
  closed : t.closeTime.isSome ∨ t.closePrice.isSome → IsClosed (legs history pid)
  writes : ∀ dl ∈ t.writes, ∀ d ∈ dl, d ∈ dealsOf history pid
  settled : (∃ dl ∈ t.writes, (∀ d ∈ dealsOf history pid, d ∈ dl) ∧
      IsClosed (firsts Deal.key dl)) →
    t.figures.close = (figures (legs history pid)).stored.close

lemma Plain.congr {history' : List Deal} (h : Plain history pid)
    (heq : dealsOf history' pid = dealsOf history pid) : Plain history' pid := by
  obtain ⟨hkeyed, hnamed, hreg, hnone⟩ := h
  constructor <;> rwa [heq]

lemma Fits.congr {history' : List Deal} (h : Fits cutover history pid t)
    (heq : dealsOf history' pid = dealsOf history pid) : Fits cutover history' pid t := by
  have hlegs : legs history' pid = legs history pid := by rw [legs, heq, legs]
  obtain ⟨hpos, hopened, hcut, hvol, hclosed, hwrites, hsettled⟩ := h
  refine ⟨hpos, ?_, ?_, ?_, ?_, ?_, ?_⟩
  · rwa [hlegs]
  · rwa [heq]
  · rwa [hlegs]
  · rwa [hlegs]
  · rwa [heq]
  · rwa [heq, hlegs]

/-- The invariant of the runs whose steps meet the condition. -/
structure Sound (cutover : Option Time) (w : World) : Prop where
  plain : ∀ pid, isPosition pid → Plain w.history pid
  rows : ∀ pid t, w.trades pid = some t → Fits cutover w.history pid t

lemma sound_start : Sound cutover start where
  plain _ _ := ⟨by simp [Keyed, start, dealsOf], by simp [Named, start, dealsOf],
    by simp [Regular, start, dealsOf], by simp [start, dealsOf, inouts]⟩
  rows _ _ h := by simp [start] at h

lemma mem_legs_of_mem (h : Plain history pid) : d ∈ legs history pid ↔ d ∈ dealsOf history pid :=
  mem_firsts h.keyed h.named

lemma legs_subset (deals : List Deal) (pid : String) : legs deals pid ⊆ dealsOf deals pid :=
  (firsts_sublist _).subset

lemma Plain.regular_legs (h : Plain history pid) : Regular (legs history pid) :=
  h.regular.mono (legs_subset history pid)

variable {deals : List Deal}

lemma dealsOf_subset (hsub : ∀ d ∈ deals, d ∈ history) :
    dealsOf deals pid ⊆ dealsOf history pid := by
  intro d hd
  rw [mem_dealsOf] at hd ⊢
  exact ⟨hsub d hd.1, hd.2⟩

lemma Plain.exists_missing (h : Plain history pid) (hsub : ∀ d ∈ deals, d ∈ history) :
    ∃ rest, (legs deals pid ++ rest).Perm (legs history pid) ∧
      Regular (legs deals pid ++ rest) ∧ ∀ d ∈ rest, d ∈ dealsOf history pid ∧ d ∉ deals := by
  obtain ⟨rest, hperm, hrest⟩ := exists_rest h.keyed h.named (dealsOf_subset hsub)
  refine ⟨rest, hperm, h.regular_legs.mono hperm.subset, fun d hd => ?_⟩
  obtain ⟨hknown, hnot⟩ := hrest d hd
  exact ⟨hknown, fun hlisted => hnot (mem_dealsOf.mpr ⟨hlisted, (mem_dealsOf.mp hknown).2⟩)⟩

lemma figures_legs_congr (h : Plain history pid) {dl : List Deal}
    (hmem : ∀ d, d ∈ dl ↔ d ∈ dealsOf history pid) (hne : ins (legs history pid) ≠ []) :
    figures (firsts Deal.key dl) = figures (legs history pid) :=
  (figures_perm h.regular_legs (firsts_perm h.keyed h.named hmem).symm hne).symm

lemma isClosed_legs_congr (h : Plain history pid) {dl : List Deal}
    (hmem : ∀ d, d ∈ dl ↔ d ∈ dealsOf history pid) :
    IsClosed (firsts Deal.key dl) ↔ IsClosed (legs history pid) := by
  have hperm := firsts_perm h.keyed h.named hmem
  exact isClosed_congr (h.regular_legs.mono hperm.subset) h.regular_legs (ins_perm hperm)
    (outs_perm hperm)

lemma exists_record (h : Plain history pid) (hpos : isPosition pid)
    (hsub : ∀ d ∈ deals, d ∈ history) (hne : ins (legs deals pid) ≠ []) :
    ∃ p, record deals pid = some p := by
  have hinouts : inouts (legs deals pid) = [] := by
    refine List.filter_eq_nil_iff.mpr fun d hd => ?_
    have hknown := dealsOf_subset hsub (legs_subset deals pid hd)
    exact List.filter_eq_nil_iff.mp h.inouts d hknown
  rw [legs] at hinouts hne
  obtain ⟨first, later, hins⟩ := List.exists_cons_of_ne_nil hne
  simp [record, hpos, buildPosition, hinouts, hins]

/-! ### A call -/

structure Listed (history deals : List Deal) (pid : String) (p : Position) (ot : Time) : Prop where
  position : isPosition pid
  name : p.positionId = pid
  opened : ins (legs deals pid) ≠ []
  figures : p.toFigures = figures (legs deals pid)
  openTime : p.openTime = some ot
  earliest : ∃ d ∈ ins (dealsOf deals pid), d.time = some ot
  least : ∀ d ∈ ins (legs deals pid), ∀ t ∈ d.time, ot ≤ t

lemma Sound.listed (h : Sound cutover w) (hsub : ∀ d ∈ deals, d ∈ w.history)
    (hp : record deals pid = some p) : ∃ ot, Listed w.history deals pid p ot := by
  have hpos : isPosition pid := by
    unfold record at hp
    split_ifs at hp with hpos
    exact hpos
  obtain ⟨hname, hne, hfig⟩ := record_eq_some hp
  have hreg : Regular (legs deals pid) :=
    (h.plain pid hpos).regular.mono
      (List.Subset.trans (legs_subset deals pid) (dealsOf_subset hsub))
  obtain ⟨ot, hot, ⟨d, hd, hdt⟩, hleast⟩ := hreg.openTime_spec hne
  refine ⟨ot, hpos, hname, hne, hfig, ?_, ⟨d, ?_, hdt⟩, hleast⟩
  · rw [hfig]
    exact hot
  · rw [mem_ins] at hd ⊢
    exact ⟨legs_subset deals pid hd.1, hd.2⟩

lemma Sound.trades_call (h : Sound cutover w) (hsub : ∀ d ∈ call.deals, d ∈ w.history) :
    (upsertTrades cutover call w.trades).2 = true ∧
      ∀ pid, (step cutover w (.upsert call)).trades pid =
        (record call.deals pid).elim (w.trades pid)
          fun p => written cutover call p (w.trades pid) := by
  refine upsertTrades_spec w.trades fun pid p hp => ?_
  obtain ⟨ot, hlisted⟩ := h.listed hsub hp
  simp [hlisted.openTime]

lemma Listed.skips_iff {ot : Time} (h : Listed history deals pid p ot) :
    skips cutover p = true ↔ ∃ c ∈ cutover, ot < c := by
  cases cutover <;> simp [skips, h.openTime]

lemma figures_create {ot : Time} (h : Listed history deals pid p ot) :
    (create call p ot).figures = (figures (legs deals pid)).stored := by
  rw [← h.figures]
  simp [Trade.figures, create, Figures.stored, h.openTime]

lemma close_refresh {ot : Time} (h : Listed history deals pid p ot)
    (hreg : Regular (legs deals pid))
    (hclose : IsClosed (legs deals pid) ∨ t.closeTime = none ∧ t.closePrice = none) :
    (refresh call p t).figures.close = (figures (legs deals pid)).stored.close := by
  have hfig := h.figures
  rcases hclose with hclosed | ⟨htime, hprice⟩
  · obtain ⟨ct, hct⟩ := Option.isSome_iff_exists.mp (hreg.closeTime_isSome hclosed.1)
    rw [← hfig]
    have hp : p.closeTime = some ct := by rw [hfig]; simp [figures, hclosed, hct]
    have hq : p.closePrice.isSome := by rw [hfig]; simp [figures, hclosed]
    obtain ⟨cp, hcp⟩ := Option.isSome_iff_exists.mp hq
    simp [Trade.figures, refresh, Figures.stored, Figures.close, hp, hcp]
  · rw [← hfig]
    simp [Trade.figures, refresh, Figures.stored, Figures.close, htime, hprice]

lemma figures_refresh {ot : Time} (h : Listed history deals pid p ot)
    (hvol : t.volume = quantize 2 (inVol (legs deals pid)))
    (hclose : (refresh call p t).figures.close = (figures (legs deals pid)).stored.close) :
    (refresh call p t).figures = (figures (legs deals pid)).stored := by
  have hfig := h.figures
  simp only [Figures.close, Close.mk.injEq] at hclose
  obtain ⟨htime, hprice, hprofit, hcommission, hswap⟩ := hclose
  rw [Figures.mk.injEq]
  refine ⟨hvol, ?_, ?_, htime, hprice, hprofit, hcommission, hswap⟩
  · rw [← hfig]
    simp [Trade.figures, refresh, Figures.stored, h.openTime]
  · rw [← hfig]
    simp [Trade.figures, refresh, Figures.stored]

lemma stored_close_congr {f f' : Figures} (h : f.close = f'.close) :
    f.stored.close = f'.stored.close := by
  simp only [Figures.close, Close.mk.injEq] at h
  simp [Figures.close, Figures.stored, h]

/-! ### The steps keep the agreement -/

lemma Listed.shown {ot : Time} (h : Listed history deals pid p ot) :
    ins (dealsOf deals pid) ≠ [] := by
  obtain ⟨d, hd, -⟩ := h.earliest
  exact List.ne_nil_of_mem hd

lemma ins_missing {rest : List Deal} (hrest : ∀ d ∈ rest, d ∈ dealsOf history pid ∧ d ∉ deals)
    (hall : ∀ d ∈ ins (dealsOf history pid), d ∈ deals) : ins rest = [] := by
  refine List.filter_eq_nil_iff.mpr fun d hd hin => ?_
  obtain ⟨hknown, hnot⟩ := hrest d hd
  exact hnot (hall d (mem_ins.mpr ⟨hknown, hin⟩))

lemma fits_create (h : Sound cutover w) {ot : Time}
    (hsub : ∀ d ∈ call.deals, d ∈ w.history) (hp : Listed w.history call.deals pid p ot)
    (hskip : ¬ skips cutover p) (hall : ∀ d ∈ ins (dealsOf w.history pid), d ∈ call.deals) :
    Fits cutover w.history pid (create call p ot) := by
  have hplain := h.plain pid hp.position
  obtain ⟨rest, hperm, hreg, hrest⟩ := hplain.exists_missing hsub
  have hnone := ins_missing hrest hall
  have hins : (ins (legs call.deals pid)).Perm (ins (legs w.history pid)) := by
    simpa [hnone] using ins_perm hperm
  have hshown : Regular (legs call.deals pid) := hreg.mono (List.subset_append_left _ rest)
  have hclosed : IsClosed (legs call.deals pid) → IsClosed (legs w.history pid) := fun hc =>
    (isClosed_congr hreg hplain.regular_legs (ins_perm hperm) (outs_perm hperm)).mp
      (isClosed_append hreg hnone hc)
  have hfig : (create call p ot).figures = _ := figures_create hp
  refine ⟨hp.position, mt (perm_eq_nil_iff hins).mpr hp.opened, fun c hc d hd t ht => ?_, ?_,
    fun hsome => ?_, fun dl hdl d hd => ?_, fun ⟨dl, hdl, hmem, hc⟩ => ?_⟩
  · have hle : c ≤ ot := not_lt.mp fun hlt => hskip (hp.skips_iff.mpr ⟨c, hc, hlt⟩)
    have hleg : d ∈ ins (legs w.history pid) := by
      rw [mem_ins] at hd ⊢
      exact ⟨(mem_legs_of_mem hplain).mpr hd.1, hd.2⟩
    exact hle.trans (hp.least d (hins.mem_iff.mpr hleg) t ht)
  · rw [← inVol_congr hshown hplain.regular_legs hins]
    exact congrArg Figures.volume hfig
  · refine hclosed ?_
    have htime := congrArg Figures.closeTime hfig
    have hprice := congrArg Figures.closePrice hfig
    by_contra hopen
    simp only [Trade.figures, Figures.stored, figures, if_neg hopen] at htime hprice
    simp [htime, hprice] at hsome
  · simp only [create, List.mem_singleton] at hdl
    rw [hdl, hp.name] at hd
    exact dealsOf_subset hsub hd
  · simp only [create, List.mem_singleton] at hdl
    rw [hdl, hp.name] at hmem
    have hsame : ∀ d, d ∈ dealsOf call.deals pid ↔ d ∈ dealsOf w.history pid := fun d =>
      ⟨fun hd => dealsOf_subset hsub hd, hmem d⟩
    rw [hfig, legs, figures_legs_congr hplain hsame (mt (perm_eq_nil_iff hins).mpr hp.opened)]

lemma isClosed_of_recorded (h : Plain w.history pid) (hfit : Fits cutover w.history pid t)
    (hrec : RecordedClosed w pid t) : IsClosed (legs w.history pid) := by
  obtain ⟨dl, hdl, hall, hc⟩ := hrec
  exact (isClosed_legs_congr h fun d => ⟨hfit.writes dl hdl d, hall d⟩).mp hc

lemma fits_refresh (h : Sound cutover w) {ot : Time} (hfit : Fits cutover w.history pid t)
    (hsub : ∀ d ∈ call.deals, d ∈ w.history) (hp : Listed w.history call.deals pid p ot)
    (hclosing : IsClosed (legs call.deals pid) → IsClosed (legs w.history pid))
    (hkept : RecordedClosed w pid t → ∀ d ∈ dealsOf w.history pid,
      d ∈ call.deals ∨ d.isOut = false ∧ d.commission = 0 ∧ d.swap = 0) :
    Fits cutover w.history pid (refresh call p t) := by
  have hplain := h.plain pid hp.position
  obtain ⟨rest, hperm, hreg, hrest⟩ := hplain.exists_missing hsub
  have hshown : Regular (legs call.deals pid) := hreg.mono (List.subset_append_left _ rest)
  refine ⟨hfit.position, hfit.opened, hfit.cutover, hfit.volume, fun hsome => ?_,
    fun dl hdl d hd => ?_, fun ⟨dl, hdl, hmem, hc⟩ => ?_⟩
  · by_cases hc : IsClosed (legs call.deals pid)
    · exact hclosing hc
    · refine hfit.closed ?_
      have htime : p.closeTime = none := by rw [hp.figures]; simp [figures, hc]
      have hprice : p.closePrice = none := by rw [hp.figures]; simp [figures, hc]
      simpa [refresh, htime, hprice] using hsome
  · simp only [refresh, List.mem_append, List.mem_singleton] at hdl
    rcases hdl with hdl | rfl
    · exact hfit.writes dl hdl d hd
    · rw [hp.name] at hd
      exact dealsOf_subset hsub hd
  · -- The close of the snapshot is that of the known deals, whichever write was complete.
    have hsame : IsClosed (legs call.deals pid) ∧
        (figures (legs call.deals pid)).close = (figures (legs w.history pid)).close := by
      simp only [refresh, List.mem_append, List.mem_singleton] at hdl
      rcases hdl with hdl | rfl
      · have hrec : RecordedClosed w pid t := ⟨dl, hdl, hmem, hc⟩
        have hquiet : ∀ d ∈ rest, d.isOut = false ∧ d.commission = 0 ∧ d.swap = 0 := fun d hd =>
          (hkept hrec d (hrest d hd).1).resolve_left (hrest d hd).2
        have hknown := isClosed_of_recorded hplain hfit hrec
        have hall : IsClosed (legs call.deals pid ++ rest) :=
          (isClosed_congr hreg hplain.regular_legs (ins_perm hperm) (outs_perm hperm)).mpr hknown
        obtain ⟨hpart, hclose⟩ := close_append hreg hquiet hall
        exact ⟨hpart, by rw [hclose, figures_perm hreg hperm (by simp [hp.opened])]⟩
      · rw [hp.name] at hmem hc
        have hlist : ∀ d, d ∈ dealsOf call.deals pid ↔ d ∈ dealsOf w.history pid := fun d =>
          ⟨fun hd => dealsOf_subset hsub hd, hmem d⟩
        exact ⟨hc, congrArg Figures.close (figures_legs_congr hplain hlist hfit.opened)⟩
    rw [close_refresh hp hshown (.inl hsame.1), stored_close_congr hsame.2]

lemma Sound.row_call (h : Sound cutover w) (hfollows : Follows cutover w (.upsert call))
    {t' : Trade} (ht' : (step cutover w (.upsert call)).trades pid = some t') :
    (record call.deals pid = none ∧ w.trades pid = some t') ∨
      ∃ p ot, record call.deals pid = some p ∧ Listed w.history call.deals pid p ot ∧
        ((∃ t, w.trades pid = some t ∧ t' = refresh call p t) ∨
          w.trades pid = none ∧ t' = create call p ot ∧ ¬ skips cutover p ∧
            ∀ d ∈ ins (dealsOf w.history pid), d ∈ call.deals) := by
  obtain ⟨hsub, hshows⟩ := hfollows
  rw [(h.trades_call hsub).2 pid] at ht'
  cases hp : record call.deals pid with
  | none =>
    rw [hp] at ht'
    exact .inl ⟨rfl, ht'⟩
  | some p =>
    rw [hp] at ht'
    obtain ⟨ot, hlisted⟩ := h.listed hsub hp
    have hshown := hshows pid hlisted.position hlisted.shown
    refine .inr ⟨p, ot, rfl, hlisted, ?_⟩
    simp only [Shows] at hshown
    cases ht : w.trades pid with
    | some t =>
      -- A row is never from before the cutover, and the snapshot opens no earlier than the row.
      have hskip : ¬ skips cutover p := fun hskip => by
        obtain ⟨c, hc, hlt⟩ := hlisted.skips_iff.mp hskip
        obtain ⟨d, hd, hdt⟩ := hlisted.earliest
        rw [mem_ins] at hd
        have hknown := dealsOf_subset hsub hd.1
        have hle := (h.rows pid t ht).cutover c hc d (mem_ins.mpr ⟨hknown, hd.2⟩) ot hdt
        exact absurd hlt (not_lt.mpr hle)
      simp only [ht, Option.elim_some, written, if_neg hskip] at ht'
      exact .inl ⟨t, rfl, (Option.some.inj ht').symm⟩
    | none =>
      rw [ht] at hshown
      simp only [ht, Option.elim_some, written, hlisted.openTime, Option.map_some] at ht'
      split_ifs at ht' with hskip
      refine .inr ⟨rfl, (Option.some.inj ht').symm, hskip, hshown.resolve_left ?_⟩
      rintro ⟨c, hc, d, hd, t, hdt, hlt⟩
      refine hskip (hlisted.skips_iff.mpr ⟨c, hc, lt_of_le_of_lt (hlisted.least d ?_ t hdt) hlt⟩)
      rw [mem_ins] at hd ⊢
      have hplain := h.plain pid hlisted.position
      have hpart : dealsOf call.deals pid ⊆ dealsOf w.history pid := dealsOf_subset hsub
      exact ⟨(mem_firsts (hplain.keyed.mono hpart) (hplain.named.mono hpart)).mpr hd.1, hd.2⟩

lemma sound_upsert (h : Sound cutover w) (hfollows : Follows cutover w (.upsert call)) :
    Sound cutover (step cutover w (.upsert call)) := by
  refine ⟨h.plain, fun pid t' ht' => ?_⟩
  obtain ⟨-, hold⟩ | ⟨p, ot, -, hp, ⟨t, ht, rfl⟩ | ⟨-, rfl, hskip, hall⟩⟩ := h.row_call hfollows ht'
  · exact h.rows pid t' hold
  · have hshown := hfollows.2 pid hp.position hp.shown
    simp only [Shows, ht] at hshown
    exact fits_refresh (w := w) h (h.rows pid t ht) hfollows.1 hp hshown.1 hshown.2
  · exact fits_create (w := w) h hfollows.1 hp hskip hall

lemma dealsOf_concat (history : List Deal) (d : Deal) (pid : String) :
    dealsOf (history ++ [d]) pid =
      if d.positionId = pid then dealsOf history pid ++ [d] else dealsOf history pid := by
  unfold dealsOf
  split_ifs with hpid <;> simp [hpid]

lemma dealsOf_concat_self (history : List Deal) (d : Deal) :
    dealsOf (history ++ [d]) d.positionId = dealsOf history d.positionId ++ [d] := by
  rw [dealsOf_concat, if_pos rfl]

lemma plain_concat (h : Plain w.history d.positionId) (hd : Opens w d) (hrev : d.isInout = false) :
    Plain (w.history ++ [d]) d.positionId := by
  have hdeals := dealsOf_concat_self w.history d
  constructor
  · intro e he
    rw [hdeals, List.mem_append, List.mem_singleton] at he
    rcases he with he | rfl
    · exact h.keyed e he
    · simpa [Deal.key] using hd.ticket
  · intro e he e' he' heq
    rw [hdeals, List.mem_append, List.mem_singleton] at he he'
    rcases he with he | rfl <;> rcases he' with he' | rfl
    · exact h.named e he e' he' heq
    · exact absurd heq (hd.fresh e he)
    · exact absurd heq.symm (hd.fresh e' he')
    · rfl
  · intro e he
    rw [hdeals, List.mem_append, List.mem_singleton] at he
    rcases he with he | rfl
    · exact h.regular e he
    · exact ⟨hd.time, hd.volume⟩
  · rw [hdeals, inouts, List.filter_append]
    have hnone := h.inouts
    rw [inouts] at hnone
    simp [hnone, hrev]

lemma fits_concat (h : Plain w.history d.positionId) (hd : Opens w d) (hrev : d.isInout = false)
    (hin : d.isIn = false) (hfit : Fits cutover w.history d.positionId t) :
    Fits cutover (w.history ++ [d]) d.positionId t := by
  have hplain := plain_concat h hd hrev
  have hdeals := dealsOf_concat_self w.history d
  obtain ⟨rest, hperm, hreg, hrest⟩ :=
    hplain.exists_missing fun e (he : e ∈ w.history) => List.mem_append_left [d] he
  have hnone : ins rest = [] := by
    refine List.filter_eq_nil_iff.mpr fun e he => ?_
    obtain ⟨hknown, hnot⟩ := hrest e he
    rw [hdeals, List.mem_append, List.mem_singleton] at hknown
    rcases hknown with hknown | rfl
    · exact absurd (mem_dealsOf.mp hknown).1 hnot
    · simp [hin]
  have hins : (ins (legs w.history d.positionId)).Perm
      (ins (legs (w.history ++ [d]) d.positionId)) := by
    simpa [hnone] using ins_perm hperm
  refine ⟨hfit.position, mt (perm_eq_nil_iff hins).mpr hfit.opened, fun c hc e he => ?_, ?_,
    fun hsome => ?_, fun dl hdl e he => ?_, fun ⟨dl, hdl, hmem, _⟩ => ?_⟩
  · rw [hdeals, ins_append] at he
    refine hfit.cutover c hc e ((List.mem_append.mp he).resolve_right fun hlast => ?_)
    rw [mem_ins, List.mem_singleton] at hlast
    obtain ⟨rfl, hlast⟩ := hlast
    simp [hin] at hlast
  · rw [hfit.volume, inVol_congr h.regular_legs hplain.regular_legs hins]
  · exact (isClosed_congr hreg hplain.regular_legs (ins_perm hperm) (outs_perm hperm)).mp
      (isClosed_append hreg hnone (hfit.closed hsome))
  · rw [hdeals]
    exact List.mem_append_left [d] (hfit.writes dl hdl e he)
  · -- No snapshot before the deal was made has listed it.
    have hlast : d ∈ dealsOf (w.history ++ [d]) d.positionId := by rw [hdeals]; simp
    exact absurd rfl (hd.fresh d (hfit.writes dl hdl d (hmem d hlast)))

lemma sound_deal (h : Sound cutover w) (hfollows : Follows cutover w (.deal d)) :
    Sound cutover (step cutover w (.deal d)) := by
  obtain ⟨hrev, hopens⟩ := hfollows
  constructor
  · intro pid hpos
    by_cases hpid : d.positionId = pid
    · subst hpid
      exact plain_concat (h.plain _ hpos) (hopens hpos) hrev
    · have hsame := dealsOf_concat w.history d pid
      rw [if_neg hpid] at hsame
      exact (h.plain pid hpos).congr hsame
  · intro pid t (ht : w.trades pid = some t)
    have hfit := h.rows pid t ht
    by_cases hpid : d.positionId = pid
    · subst hpid
      have hd := hopens hfit.position
      have hin : d.isIn = false := by
        by_contra hin
        rw [hd.first (by simpa using hin)] at ht
        cases ht
      exact fits_concat (h.plain _ hfit.position) hd hrev hin hfit
    · have hsame := dealsOf_concat w.history d pid
      rw [if_neg hpid] at hsame
      exact hfit.congr hsame

/-- The steps that meet the condition keep the rows in agreement with the history. -/
theorem sound_step (w : World) (a : Action) (h : Sound cutover w) (hfollows : Follows cutover w a) :
    Sound cutover (step cutover w a) := by
  cases a with
  | deal d => exact sound_deal h hfollows
  | upsert call => exact sound_upsert h hfollows

lemma converges_of_sound (h : Sound cutover w) (hfollows : Follows cutover w (.upsert call)) :
    Converges cutover w call := by
  intro hall _ pid t' ht'
  have hlist : ∀ d, d ∈ dealsOf call.deals pid ↔ d ∈ dealsOf w.history pid := fun d =>
    ⟨fun hd => dealsOf_subset hfollows.1 hd, fun hd => dealsOf_subset hall hd⟩
  have hfit := (sound_upsert h hfollows).rows pid t' ht'
  have hplain := h.plain pid hfit.position
  have hfig := figures_legs_congr hplain hlist hfit.opened
  have hins : (ins (legs call.deals pid)).Perm (ins (legs w.history pid)) :=
    ins_perm (firsts_perm hplain.keyed hplain.named hlist)
  obtain ⟨q, hq⟩ := exists_record hplain hfit.position (fun _ hd => hd) hfit.opened
  have hcanonical : q.toFigures = figures (legs call.deals pid) :=
    (record_eq_some hq).2.2.trans hfig.symm
  rw [hq, Option.map_some, hcanonical, Option.some.injEq]
  obtain ⟨hnone, -⟩ | ⟨p, ot, -, hp, ⟨t, ht, rfl⟩ | ⟨-, rfl, -, -⟩⟩ := h.row_call hfollows ht'
  · obtain ⟨p, hp⟩ := exists_record hplain hfit.position hfollows.1
      (mt (perm_eq_nil_iff hins).mp hfit.opened)
    rw [hp] at hnone
    cases hnone
  · have hrow := h.rows pid t ht
    have hshown : Regular (legs call.deals pid) :=
      hplain.regular_legs.mono (firsts_perm hplain.keyed hplain.named hlist).subset
    refine (figures_refresh hp ?_ (close_refresh hp hshown ?_)).symm
    · rw [hrow.volume, inVol_congr hshown hplain.regular_legs hins]
    · -- A row with a close is one of a closed position.
      by_cases hc : IsClosed (legs call.deals pid)
      · exact .inl hc
      · have hopen := mt hrow.closed (mt (isClosed_legs_congr hplain hlist).mpr hc)
        exact .inr (by simpa using hopen)
  · exact (figures_create hp).symm

/-- A close that was recorded from all the deals stays. -/
lemma keepsCloses_of_sound (h : Sound cutover w) (hfollows : Follows cutover w (.upsert call)) :
    KeepsCloses cutover w call := by
  intro pid t ht hrec
  have hafter := sound_upsert h hfollows
  have hbefore := (h.rows pid t ht).settled hrec
  obtain ⟨dl, hdl, hmem, hc⟩ := hrec
  cases hp : record call.deals pid with
  | none =>
    refine ⟨t, ?_, rfl⟩
    rw [(h.trades_call hfollows.1).2 pid, hp]
    exact ht
  | some p =>
    obtain ⟨t', ht'⟩ : ∃ t', (step cutover w (.upsert call)).trades pid = some t' := by
      rw [(h.trades_call hfollows.1).2 pid, hp, ht]
      exact ⟨_, rfl⟩
    have hwrites : dl ∈ t'.writes := by
      obtain ⟨hnone, -⟩ | ⟨p, ot, -, -, ⟨s, hs, rfl⟩ | ⟨hnew, -⟩⟩ := h.row_call hfollows ht'
      · rw [hp] at hnone
        cases hnone
      · obtain rfl : t = s := Option.some.inj (ht.symm.trans hs)
        exact List.mem_append_left _ hdl
      · rw [ht] at hnew
        cases hnew
    refine ⟨t', ht', ?_⟩
    rw [hbefore, (hafter.rows pid t' ht').settled ⟨dl, hwrites, hmem, hc⟩]
    rfl

/-- In a run whose steps meet the condition every call comes to its end; after a call with the
complete history every row holds the figures of its position, and no call changes a close that was
recorded from all its deals. -/
theorem rows_converge (cutover : Option Time) (as : List Action) (call : Call)
    (h : StepsMeet (step cutover) (Follows cutover) start (as ++ [.upsert call])) :
    (upsertTrades cutover call (run (step cutover) start as).trades).2 = true ∧
      Converges cutover (run (step cutover) start as) call ∧
        KeepsCloses cutover (run (step cutover) start as) call := by
  obtain ⟨has, hcall, -⟩ := stepsMeet_append.mp h
  have hsound : Sound cutover (run (step cutover) start as) :=
    run_invariant_of_meets sound_step sound_start has
  exact ⟨(hsound.trades_call hcall.1).1, converges_of_sound hsound hcall,
    keepsCloses_of_sound hsound hcall⟩

def sampleDeal (ticket : String) (entry : ℤ) (time : Time) (volume price profit commission : ℚ) :
    Deal where
  ticket := some ticket
  positionId := "7"
  entry := some entry
  time := some time
  type := if entry = 0 then "0" else "1"
  symbol := "XAUUSD"
  volume := volume
  price := price
  profit := profit
  commission := commission
  swap := 0
  comment := "WAY9L1"
  magic := none

def snapshot (deals : List Deal) : Call where
  deals := deals
  now := 1000
  inferSourceStage := fun _ => .unknown

def opening : Deal := sampleDeal "11" 0 100 1 2000 0 (-1)

def scaleIn : Deal := sampleDeal "12" 0 200 1 2010 0 (-1)

def closing : Deal := sampleDeal "13" 1 300 2 2020 30 (-2)

lemma follows_snapshot (hgiven : Given w (.upsert (snapshot deals)))
    (hone : ∀ d ∈ deals, d.positionId = "7") (hshows : Shows cutover w (snapshot deals) "7") :
    Follows cutover w (.upsert (snapshot deals)) := by
  refine ⟨hgiven, fun pid _ hne => ?_⟩
  obtain ⟨d, hd⟩ := List.exists_mem_of_ne_nil _ hne
  obtain ⟨hlisted, rfl⟩ := mem_dealsOf.mp (mem_ins.mp hd).1
  rwa [hone d hlisted]

/-- A position is opened, recorded, and closed; its row follows. -/
def closingRun : List Action :=
  [.deal opening, .upsert (snapshot [opening]), .deal closing]

theorem rows_converge_closingRun :
    Converges none (run (step none) start closingRun) (snapshot [closing, opening, closing]) := by
  refine (rows_converge none closingRun _ ⟨⟨by decide, fun _ => ?_⟩, ?_, ⟨by decide, fun _ => ?_⟩,
    ?_, trivial⟩).2.1
  · exact ⟨by decide, by decide +kernel, by decide, by decide +kernel, by decide +kernel⟩
  · exact follows_snapshot (by decide +kernel) (by decide) (by decide +kernel)
  · exact ⟨by decide, by decide +kernel, by decide, by decide +kernel, by decide +kernel⟩
  · exact follows_snapshot (by decide +kernel) (by decide) (by decide +kernel)

def scaledRun : List Action :=
  [.deal opening, .upsert (snapshot [opening]), .deal scaleIn]

/-- The first deal of a closed position is no longer in the window. -/
def movedRun : List Action :=
  [.deal opening, .deal scaleIn, .deal closing, .upsert (snapshot [opening, scaleIn, closing])]

/-- The row of a position that was scaled into keeps its volume though the snapshot is complete,
and a snapshot whose window has moved takes a commission out of a recorded close. -/
theorem not_rows_converge :
    (¬ ∀ cutover as call, StepsMeet (step cutover) Given start (as ++ [.upsert call]) →
      Converges cutover (run (step cutover) start as) call) ∧
    ¬ ∀ cutover as call, StepsMeet (step cutover) Given start (as ++ [.upsert call]) →
      KeepsCloses cutover (run (step cutover) start as) call := by
  constructor
  · intro h
    have hrow : ((step none (run (step none) start scaledRun)
        (.upsert (snapshot [opening, scaleIn]))).trades "7").map Trade.volume = some 1 := by
      decide +kernel
    obtain ⟨t, ht, hvol⟩ := Option.map_eq_some_iff.mp hrow
    have hsame := h none scaledRun (snapshot [opening, scaleIn]) (by decide +kernel)
      (by decide +kernel) (by decide +kernel) "7" t ht
    have hfull : (record (run (step none) start scaledRun).history "7").map
        (fun p => p.toFigures.stored.volume) = some 2 := by decide +kernel
    obtain ⟨p, hp, hpvol⟩ := Option.map_eq_some_iff.mp hfull
    rw [hp, Option.map_some, Option.some.injEq] at hsame
    have hboth : p.toFigures.stored.volume = t.volume := congrArg Figures.volume hsame
    rw [hpvol, hvol] at hboth
    exact absurd hboth (by decide +kernel)
  · intro h
    have hrow : ((run (step none) start movedRun).trades "7").map
        (fun t => (t.commission, decide (RecordedClosed (run (step none) start movedRun) "7" t))) =
          some (-4, true) := by decide +kernel
    obtain ⟨t, ht, hpair⟩ := Option.map_eq_some_iff.mp hrow
    obtain ⟨hcommission, hrec⟩ := Prod.mk.inj hpair
    obtain ⟨t', ht', hclose⟩ := h none movedRun (snapshot [scaleIn, closing]) (by decide +kernel)
      "7" t ht (of_decide_eq_true hrec)
    have hmoved : ((step none (run (step none) start movedRun)
        (.upsert (snapshot [scaleIn, closing]))).trades "7").map Trade.commission = some (-3) := by
      decide +kernel
    rw [ht', Option.map_some, Option.some.injEq] at hmoved
    have hkept : t'.commission = t.commission := congrArg Close.commission hclose
    rw [hmoved, hcommission] at hkept
    exact absurd hkept (by decide +kernel)

end TradeIngest
end GuvFX
