/-
# How often the exposure counts a leg

The exposure of an account is the sum of its open trades and of the legs in flight: those of promoted
plans that no open trade carries the comment of.  So every leg of a promoted plan is counted at least
once, whatever has become of its order: a leg whose trade has closed is in flight again, and so is one
whose order has failed, until the plan is closed.  A leg with two open trades is counted twice.

The exposure therefore counts the legs rightly when each of them has an order that may still fill, or one
open trade.
-/
import GuvFX.Execution.AccountExposure

namespace GuvFX

namespace Table

variable {ρ σ M : Type*} [AddCommMonoid M]

lemma total_map (t : Table ρ) (f : ρ → σ) (w : ℕ → σ → M) :
    (t.map f).total w = t.total fun k v => w k (f v) := by
  rw [total, total, map, List.map_map]
  rfl

lemma total_eq_single (t : Table ρ) (w : ℕ → ρ → M) {k : ℕ} {v : ρ} (hk : t.get k = some v)
    (h : ∀ j u, t.get j = some u → j ≠ k → w j u = 0) : t.total w = w k v := by
  have hmem : k ∈ t.keys.toFinset := List.mem_toFinset.mpr (mem_keys_of_get hk)
  rw [total_eq_sum t w (s := t.keys.toFinset) fun j hj => List.mem_toFinset.mpr hj,
    Finset.sum_eq_single_of_mem k hmem fun j _ hj => ?_, worth_of_get hk]
  cases hget : t.get j with
  | none => exact worth_of_get_none hget w
  | some u => rw [worth_of_get hget, h j u hget hj]

end Table

namespace RiskControls

open Runs Promotion Checks Orders
open Consumer (JobType JobStatus)

/-! ### How often a leg is counted -/

def commentOf (leg : ProposedOrderLeg) : String := legComment leg.planId leg.legIndex

/-- The same rows, with one lot for one leg and for each trade of it, and none for anything else. -/
def weighed (o : Orders.State) (accountId k : ℕ) (leg : ProposedOrderLeg) : Orders.State :=
  let legs := (o.base.db.legs.map fun row => { row with lotSize := 0 }).modify k fun row =>
    { row with lotSize := 1 }
  let trades := o.trades.map fun trade =>
    { trade with
      volume := if trade.accountId = accountId ∧ trade.comment = commentOf leg then 1 else 0 }
  { o with base := { o.base with db := { o.base.db with legs } }, trades }

def timesCounted (o : Orders.State) (accountId : ℕ) (symbol : String) (excludePlanId : Option ℕ) (k : ℕ)
    (leg : ProposedOrderLeg) : ℚ :=
  exposureBut (weighed o accountId k leg) accountId symbol excludePlanId

/-! ### What should be counted -/

def legJob (db : Db) (leg : ProposedOrderLeg) : Option ExecutionJob :=
  leg.executionJobId.bind db.jobs.get

/-- The order of the job is one that is sent, and it has not failed. -/
def mayFill (job : ExecutionJob) : Bool :=
  job.jobType ∈ [.openTrade, .placeOrder] ∧ job.status ≠ .failed

/-- The order of the leg is an open position, or may still become one. -/
def Exposed (o : Orders.State) (accountId : ℕ) (leg : ProposedOrderLeg) : Prop :=
  openComment o.trades accountId "" (commentOf leg) = true ∨
    ingested o.trades accountId (commentOf leg) = false ∧ (legJob o.base.db leg).any mayFill = true

instance (o : Orders.State) (accountId : ℕ) (leg : ProposedOrderLeg) :
    Decidable (Exposed o accountId leg) :=
  inferInstanceAs (Decidable (_ ∨ _ ∧ _))

def openTradesOf (o : Orders.State) (accountId : ℕ) (symbol : String) (leg : ProposedOrderLeg) :
    List (ℕ × Trade) :=
  o.trades.filter fun _ trade => isOpenTrade accountId symbol trade ∧ trade.comment = commentOf leg

/-- A leg that the exposure is to count, if its order is not over: one of a promoted plan of the account
and the symbol, but not of the plan that is left out. -/
def Listed (o : Orders.State) (accountId : ℕ) (symbol : String) (excludePlanId : Option ℕ) (k : ℕ)
    (leg : ProposedOrderLeg) : Prop :=
  o.base.db.legs.get k = some leg ∧ isPromotedLeg o.base.db accountId symbol leg = true ∧
    excludePlanId ≠ some leg.planId

/-- The exposure counts each leg once as long as its order is a position, or may become one, and not any
more after that. -/
structure CountsOnce (o : Orders.State) (accountId : ℕ) (symbol : String)
    (excludePlanId : Option ℕ) : Prop where
  once : ∀ k leg, Listed o accountId symbol excludePlanId k leg → Exposed o accountId leg →
    timesCounted o accountId symbol excludePlanId k leg = 1
  none : ∀ k leg, Listed o accountId symbol excludePlanId k leg → ¬ Exposed o accountId leg →
    timesCounted o accountId symbol excludePlanId k leg = 0

/-! ### The count -/

section

variable {o : Orders.State} {accountId : ℕ} {symbol : String} {e : Option ℕ} {k : ℕ}
  {leg : ProposedOrderLeg}

lemma isPromotedLeg_congr {db db' : Db} {row : ProposedOrderLeg} (hplans : db'.plans = db.plans)
    (hplan : row.planId = leg.planId) :
    isPromotedLeg db' accountId symbol row = isPromotedLeg db accountId symbol leg := by
  rw [isPromotedLeg, isPromotedLeg, hplans, hplan]

lemma openComment_map (trades : Table Trade) (volume : Trade → ℚ) (comment : String) :
    openComment (trades.map fun trade => { trade with volume := volume trade }) accountId symbol comment =
      openComment trades accountId symbol comment := by
  rw [openComment, openComment, Table.first, Table.first, Table.map, List.find?_map, Option.isSome_map]
  rfl

lemma openComment_eq (o : Orders.State) (accountId : ℕ) (symbol : String) (leg : ProposedOrderLeg) :
    openComment o.trades accountId symbol (commentOf leg) = !(openTradesOf o accountId symbol leg).isEmpty := by
  have hne : commentOf leg ≠ "" := legComment_ne_empty leg.planId leg.legIndex
  rw [openComment, Table.first, openTradesOf, Table.filter, Bool.eq_iff_iff, List.find?_isSome,
    Bool.not_eq_true', List.isEmpty_eq_false_iff_exists_mem]
  constructor
  · rintro ⟨row, hrow, hopen⟩
    have hopen := of_decide_eq_true hopen
    exact ⟨row, List.mem_filter.mpr ⟨hrow, by simp [hopen.1, hopen.2.2]⟩⟩
  · rintro ⟨row, hrow⟩
    obtain ⟨hrow, hopen⟩ := List.mem_filter.mp hrow
    have hopen := of_decide_eq_true hopen
    exact ⟨row, hrow, by simp [hopen.1, hopen.2, hne]⟩

lemma openPositionLots_weighed :
    openPositionLots (weighed o accountId k leg).trades accountId symbol =
      (openTradesOf o accountId symbol leg).length := by
  have hlength : ((openTradesOf o accountId symbol leg).length : ℚ) =
      ((openTradesOf o accountId symbol leg).map fun _ => (1 : ℚ)).sum := by
    rw [List.map_const', List.sum_replicate, nsmul_one]
  rw [hlength, openTradesOf, Table.sum_filter _ _ fun _ _ => (1 : ℚ), openPositionLots, weighed,
    Table.total_map]
  congr 1
  funext p trade
  -- the volume is nothing that the filter looks at
  have hsame : isOpenTrade accountId symbol
      { trade with
        volume := if trade.accountId = accountId ∧ trade.comment = commentOf leg then 1 else 0 } =
      isOpenTrade accountId symbol trade := rfl
  rw [hsame]
  by_cases hopen : isOpenTrade accountId symbol trade = true
  · have haccount : trade.accountId = accountId := (of_decide_eq_true hopen).1
    simp [hopen, haccount]
  · simp [hopen]

lemma activeSignalLots_weighed (h : Listed o accountId symbol e k leg) :
    activeSignalLots (weighed o accountId k leg) accountId symbol e =
      if openTradesOf o accountId symbol leg = [] then 1 else 0 := by
  obtain ⟨hget, hpromoted, hexcluded⟩ := h
  have hrow : (weighed o accountId k leg).base.db.legs.get k = some { leg with lotSize := 1 } := by
    simp [weighed, hget]
  have hother : ∀ j row, (weighed o accountId k leg).base.db.legs.get j = some row → j ≠ k →
      activeLegLots (weighed o accountId k leg) accountId symbol e row = 0 := by
    intro j row hj hne
    have hzero : row.lotSize = 0 := by
      rw [weighed, Table.get_modify_of_ne _ _ hne, Table.get_map] at hj
      obtain ⟨row', -, rfl⟩ := Option.map_eq_some_iff.mp hj
      rfl
    rw [activeLegLots, hzero, ite_self]
  rw [activeSignalLots, Table.total_eq_single _ _ hrow hother, activeLegLots]
  have hopen : openComment (weighed o accountId k leg).trades accountId symbol
      (legComment leg.planId leg.legIndex) = !(openTradesOf o accountId symbol leg).isEmpty := by
    rw [weighed, openComment_map]
    exact openComment_eq o accountId symbol leg
  have hleg : isPromotedLeg (weighed o accountId k leg).base.db accountId symbol
      { leg with lotSize := 1 } = true := by
    rw [← hpromoted]
    exact isPromotedLeg_congr rfl rfl
  simp only [hleg, hopen, hexcluded, ne_eq, not_false_eq_true, true_and, Bool.not_eq_false',
    List.isEmpty_iff]

lemma timesCounted_eq (h : Listed o accountId symbol e k leg) :
    timesCounted o accountId symbol e k leg = max 1 (openTradesOf o accountId symbol leg).length := by
  rw [timesCounted, exposureBut, openPositionLots_weighed, activeSignalLots_weighed h]
  cases openTradesOf o accountId symbol leg with
  | nil => simp
  | cons row rows => simp

end

/-- **The exposure counts each leg exactly once** as long as its order is an open position, or may become
one, and not after that, if and only if no leg of a promoted plan is over, or has two open trades. -/
theorem countsOnce_iff (o : Orders.State) (accountId : ℕ) (symbol : String) (excludePlanId : Option ℕ) :
    CountsOnce o accountId symbol excludePlanId ↔
      ∀ k leg, Listed o accountId symbol excludePlanId k leg →
        Exposed o accountId leg ∧ (openTradesOf o accountId symbol leg).length ≤ 1 := by
  constructor
  · intro h k leg hleg
    have hexposed : Exposed o accountId leg := by
      by_contra hover
      have hnone := h.none k leg hleg hover
      rw [timesCounted_eq hleg, Nat.cast_eq_zero] at hnone
      omega
    refine ⟨hexposed, ?_⟩
    have honce := h.once k leg hleg hexposed
    rw [timesCounted_eq hleg, Nat.cast_eq_one] at honce
    omega
  · intro h
    constructor
    · intro k leg hleg _
      have hle := (h k leg hleg).2
      rw [timesCounted_eq hleg, Nat.cast_eq_one]
      omega
    · intro k leg hleg hover
      exact absurd (h k leg hleg).1 hover

/-- The order of a leg has been filled, its position is closed, and so is the trade: the leg is counted
until its plan is closed. -/
theorem not_countsOnce :
    ¬ ∀ (o : Orders.State) (accountId : ℕ) (symbol : String) (excludePlanId : Option ℕ),
      CountsOnce o accountId symbol excludePlanId := by
  intro h
  let o := run Orders.step (Orders.start sampleEnv 0) (resolvedRun.take 14)
  have hrun : ∃ leg, o.base.db.legs.get 1 = some leg ∧
      isPromotedLeg o.base.db 1 "" leg = true ∧ ¬ Exposed o 1 leg ∧ timesCounted o 1 "" none 1 leg = 1 := by
    refine ⟨(o.base.db.legs.get 1).get (by decide +kernel), by simp, ?_, ?_, ?_⟩ <;> decide +kernel
  obtain ⟨leg, hget, hpromoted, hover, hcounted⟩ := hrun
  have hnone := (h o 1 "" none).none 1 leg ⟨hget, hpromoted, nofun⟩ hover
  rw [hcounted] at hnone
  exact one_ne_zero hnone

end RiskControls
end GuvFX
