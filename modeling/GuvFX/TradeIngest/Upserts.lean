/-
# The trade rows of an account

One row is kept for each position of an account.  A call builds the positions of a snapshot and
creates the row of a position that has none; a row that is there is refreshed field by field, where
a value that the snapshot does not give leaves the stored one.  The volume, the symbol and the side
are those of the snapshot that created the row.
-/
import Mathlib.Logic.Function.Basic
import GuvFX.TradeIngest.Positions

namespace GuvFX
namespace TradeIngest

open Decimal Firsts

inductive SourceStage where
  | test
  | live
  | unknown
  deriving DecidableEq, Repr

/-- A trade row, whose account and ticket are its place in the table. -/
structure Trade where
  symbol : String
  side : String
  volume : ℚ
  openTime : Time
  closeTime : Option Time
  openPrice : ℚ
  closePrice : Option ℚ
  profit : ℚ
  commission : ℚ
  swap : ℚ
  magicNumber : Option ℤ
  comment : String
  openedBy : String
  sourceStage : SourceStage
  closeIngestedAt : Option Time
  /-- Ghost: the deals that each snapshot written to the row has listed for it, oldest first. -/
  writes : List (List Deal)
  deriving DecidableEq, Repr

abbrev Trades := String → Option Trade

/-- What a call reads: the snapshot, the clock, and the stage that the comment of a job stands
for. -/
structure Call where
  deals : List Deal
  now : Time
  inferSourceStage : String → SourceStage

/-- The columns round what they store. -/
def Figures.stored (f : Figures) : Figures where
  volume := quantize 2 f.volume
  openTime := f.openTime
  openPrice := quantize 5 f.openPrice
  closeTime := f.closeTime
  closePrice := f.closePrice.map (quantize 5)
  profit := quantize 2 f.profit
  commission := quantize 2 f.commission
  swap := quantize 2 f.swap

def Trade.figures (t : Trade) : Figures where
  volume := t.volume
  openTime := some t.openTime
  openPrice := t.openPrice
  closeTime := t.closeTime
  closePrice := t.closePrice
  profit := t.profit
  commission := t.commission
  swap := t.swap

/-! ### One call -/

def skips (cutover : Option Time) (p : Position) : Bool :=
  cutover.any fun c => (p.openTime.or p.closeTime).any fun ot => ot < c

def create (call : Call) (p : Position) (openTime : Time) : Trade where
  symbol := p.symbol
  side := if p.side = "BUY" ∨ p.side = "SELL" then p.side else "BUY"
  volume := quantize 2 p.volume
  openTime := openTime
  closeTime := p.closeTime
  openPrice := quantize 5 p.openPrice
  closePrice := p.closePrice.map (quantize 5)
  profit := quantize 2 p.profit
  commission := quantize 2 p.commission
  swap := quantize 2 p.swap
  magicNumber := p.magic
  comment := p.comment
  openedBy := "EA"
  sourceStage := call.inferSourceStage p.comment
  closeIngestedAt := if p.closeTime.isSome then some call.now else none
  writes := [dealsOf call.deals p.positionId]

/-- The row of a position after a refresh.  A row that holds every value already is not saved;
saving it would change nothing. -/
def refresh (call : Call) (p : Position) (t : Trade) : Trade :=
  let closeTime := p.closeTime.or t.closeTime
  { t with
    openTime := p.openTime.getD t.openTime
    openPrice := quantize 5 p.openPrice
    closeTime := closeTime
    closePrice := (p.closePrice.map (quantize 5)).or t.closePrice
    profit := quantize 2 p.profit
    commission := quantize 2 p.commission
    swap := quantize 2 p.swap
    magicNumber := p.magic.or t.magicNumber
    comment := p.comment
    sourceStage :=
      if t.sourceStage = .unknown then call.inferSourceStage p.comment else t.sourceStage
    closeIngestedAt :=
      if t.closeTime = none ∧ closeTime.isSome ∧ t.closeIngestedAt = none then some call.now
      else t.closeIngestedAt
    writes := t.writes ++ [dealsOf call.deals p.positionId] }

/-- Does a refresh find a value that differs from the stored one? -/
def changed (call : Call) (p : Position) (t : Trade) : Bool :=
  p.openTime.any (· ≠ t.openTime) || p.openPrice ≠ t.openPrice ||
    p.closeTime.any (some · ≠ t.closeTime) || p.closePrice.any (some · ≠ t.closePrice) ||
    p.profit ≠ t.profit || p.commission ≠ t.commission || p.swap ≠ t.swap ||
    p.magic.any (some · ≠ t.magicNumber) || p.comment ≠ t.comment ||
    (t.sourceStage = .unknown && call.inferSourceStage p.comment ≠ .unknown) ||
    (t.closeTime.isNone && p.closeTime.isSome && t.closeIngestedAt.isNone)

/-- The table and the counts of a call under way. -/
structure Progress where
  trades : Trades
  inserted : ℕ
  updated : ℕ
  skipped : ℕ

def upsertOne (cutover : Option Time) (call : Call) (p : Position) (g : Progress) :
    Option Progress :=
  if skips cutover p then some { g with skipped := g.skipped + 1 }
  else
    match g.trades p.positionId with
    | none =>
      (p.openTime.or p.closeTime).map fun openTime =>
        { g with
          trades := Function.update g.trades p.positionId (some (create call p openTime))
          inserted := g.inserted + 1 }
    | some t =>
      some
        { g with
          trades := Function.update g.trades p.positionId (some (refresh call p t))
          updated := if changed call p t then g.updated + 1 else g.updated }

def upsertEach (cutover : Option Time) (call : Call) : List Position → Progress → Progress × Bool
  | [], g => (g, true)
  | p :: ps, g =>
    match upsertOne cutover call p g with
    | none => (g, false)
    | some g' => upsertEach cutover call ps g'

def upsertTrades (cutover : Option Time) (call : Call) (trades : Trades) : Progress × Bool :=
  upsertEach cutover call (buildPositionsFromDeals call.deals)
    { trades := trades, inserted := 0, updated := 0, skipped := 0 }

/-! ### What a call does to one row -/

variable {cutover : Option Time} {call : Call} {p : Position} {g : Progress} {pid : String}
  {dl : List Deal}

def record (deals : List Deal) (pid : String) : Option Position :=
  if isPosition pid then buildPosition pid (dealsOf deals pid) else none

def written (cutover : Option Time) (call : Call) (p : Position) : Option Trade → Option Trade
  | none => if skips cutover p then none else p.openTime.map (create call p)
  | some t => some (if skips cutover p then t else refresh call p t)

lemma buildPosition_eq_some (h : buildPosition pid dl = some p) :
    p.positionId = pid ∧ ins (firsts Deal.key dl) ≠ [] ∧
      p.toFigures = figures (firsts Deal.key dl) := by
  simp only [buildPosition] at h
  split_ifs at h
  split at h
  · cases h
  · rename_i hins
    obtain rfl := Option.some.inj h
    exact ⟨rfl, by simp [hins], rfl⟩

lemma record_eq_some {deals : List Deal} (h : record deals pid = some p) :
    p.positionId = pid ∧ ins (firsts Deal.key (dealsOf deals pid)) ≠ [] ∧
      p.toFigures = figures (firsts Deal.key (dealsOf deals pid)) := by
  unfold record at h
  split_ifs at h
  exact buildPosition_eq_some h

lemma mem_buildPositions {deals : List Deal} :
    p ∈ buildPositionsFromDeals deals ↔ record deals p.positionId = some p := by
  simp only [buildPositionsFromDeals, List.mem_filterMap, List.mem_filter]
  constructor
  · rintro ⟨pid, ⟨-, hpid⟩, hp⟩
    rw [(buildPosition_eq_some hp).1, record, if_pos hpid]
    exact hp
  · intro h
    have hne := (record_eq_some h).2.1
    unfold record at h
    split_ifs at h with hpid
    obtain ⟨d, hd⟩ := List.exists_mem_of_ne_nil _ hne
    have hlisted := (firsts_sublist _).subset (mem_ins.mp hd).1
    rw [mem_dealsOf] at hlisted
    refine ⟨p.positionId, ⟨?_, hpid⟩, h⟩
    rw [mem_firsts (fun _ _ => rfl) fun a _ b _ hab => Option.some.inj hab]
    exact List.mem_map.mpr ⟨d, hlisted⟩

lemma nodup_buildPositions (deals : List Deal) :
    ((buildPositionsFromDeals deals).map Position.positionId).Nodup := by
  have hnames : ((firsts some (deals.map Deal.positionId)).filter isPosition).Nodup :=
    (nodup_firsts fun _ _ => rfl).filter _
  rw [List.Nodup, List.pairwise_map, buildPositionsFromDeals, List.pairwise_filterMap]
  refine hnames.imp fun {pid pid'} hne p hp p' hp' => ?_
  rwa [(buildPosition_eq_some hp).1, (buildPosition_eq_some hp').1]

/-- One position changes the row of that position only. -/
lemma upsertOne_eq (cutover : Option Time) (call : Call) (g : Progress)
    (htimed : p.openTime.isSome) :
    ∃ g', upsertOne cutover call p g = some g' ∧
      g'.trades = Function.update g.trades p.positionId
        (written cutover call p (g.trades p.positionId)) := by
  obtain ⟨openTime, hot⟩ := Option.isSome_iff_exists.mp htimed
  cases ht : g.trades p.positionId with
  | none =>
    by_cases hskip : skips cutover p
    · refine ⟨_, by simp only [upsertOne, if_pos hskip]; rfl, ?_⟩
      simp [written, hskip, ← ht]
    · refine ⟨_, by simp only [upsertOne, if_neg hskip, ht, hot]; rfl, ?_⟩
      simp [written, hskip, hot]
  | some t =>
    by_cases hskip : skips cutover p
    · refine ⟨_, by simp only [upsertOne, if_pos hskip]; rfl, ?_⟩
      simp [written, hskip, ← ht]
    · refine ⟨_, by simp only [upsertOne, if_neg hskip, ht]; rfl, ?_⟩
      simp [written, hskip]

lemma upsertEach_spec (cutover : Option Time) (call : Call) {ps : List Position}
    (htimed : ∀ p ∈ ps, p.openTime.isSome) (hnodup : (ps.map Position.positionId).Nodup) :
    (upsertEach cutover call ps g).2 = true ∧
      (∀ pid ∉ ps.map Position.positionId,
        (upsertEach cutover call ps g).1.trades pid = g.trades pid) ∧
      ∀ p ∈ ps, (upsertEach cutover call ps g).1.trades p.positionId =
        written cutover call p (g.trades p.positionId) := by
  induction ps generalizing g with
  | nil => simp [upsertEach]
  | cons p ps ih =>
    obtain ⟨g', hone, htrades⟩ := upsertOne_eq cutover call g (htimed p List.mem_cons_self)
    simp only [List.map_cons, List.nodup_cons] at hnodup
    obtain ⟨hdone, hother, hthese⟩ :=
      ih (g := g') (fun q hq => htimed q (List.mem_cons_of_mem p hq)) hnodup.2
    simp only [upsertEach, hone]
    refine ⟨hdone, fun pid hpid => ?_, fun q hq => ?_⟩
    · simp only [List.map_cons, List.mem_cons, not_or] at hpid
      rw [hother pid hpid.2, htrades, Function.update_of_ne hpid.1]
    · rcases List.mem_cons.mp hq with rfl | hq
      · rw [hother _ hnodup.1, htrades, Function.update_self]
      · have hne : q.positionId ≠ p.positionId := fun heq =>
          hnodup.1 (heq ▸ List.mem_map_of_mem hq)
        rw [hthese q hq, htrades, Function.update_of_ne hne]

/-- A call, where every position that it builds has an open time. -/
theorem upsertTrades_spec (trades : Trades)
    (htimed : ∀ pid p, record call.deals pid = some p → p.openTime.isSome) :
    (upsertTrades cutover call trades).2 = true ∧
      ∀ pid, (upsertTrades cutover call trades).1.trades pid =
        (record call.deals pid).elim (trades pid)
          fun p => written cutover call p (trades pid) := by
  obtain ⟨hdone, hother, hthese⟩ := upsertEach_spec cutover call
    (g := { trades := trades, inserted := 0, updated := 0, skipped := 0 })
    (fun p hp => htimed _ p (mem_buildPositions.mp hp)) (nodup_buildPositions call.deals)
  refine ⟨hdone, fun pid => ?_⟩
  cases hp : record call.deals pid with
  | none =>
    refine hother pid fun hmem => ?_
    obtain ⟨q, hq, rfl⟩ := List.mem_map.mp hmem
    rw [mem_buildPositions.mp hq] at hp
    cases hp
  | some p =>
    obtain rfl := (record_eq_some hp).1
    exact hthese p (mem_buildPositions.mpr hp)

end TradeIngest
end GuvFX
