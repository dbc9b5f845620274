/-
# Positions from deals

The terminal reports an account as deals, each of which opens or closes a part of a position.  The
ingestion groups the deals by position and makes one record of each position: what was bought and
sold, at which average price, and with which result.  A snapshot may list a deal several times and
in any order; the figures of a position do not depend on it as long as each of its deals has a
ticket of its own, a time and a volume.
-/
import Mathlib.Algebra.BigOperators.Group.List.Basic
import Mathlib.Algebra.Order.BigOperators.Group.List
import Mathlib.Algebra.Order.Ring.Rat
import Mathlib.Tactic.Linarith
import GuvFX.Lib.Decimal
import GuvFX.Lib.Firsts
import GuvFX.TradeCopier.Account

namespace GuvFX
namespace TradeIngest

open Decimal Firsts

/-! ### Deals -/

/-- A deal as a snapshot lists it.  Texts are stripped of blanks, an absent position is the empty
text, and an absent or unreadable number is zero. -/
structure Deal where
  ticket : Option String
  positionId : String
  entry : Option ℤ
  time : Option Time
  type : String
  symbol : String
  volume : ℚ
  price : ℚ
  profit : ℚ
  commission : ℚ
  swap : ℚ
  comment : String
  magic : Option ℤ
  deriving DecidableEq, Repr

def dealEntryIn : ℤ := 0

def dealEntryOut : ℤ := 1

def dealEntryInout : ℤ := 2

def dealEntryOutBy : ℤ := 3

def Deal.isIn (d : Deal) : Bool := d.entry = some dealEntryIn

def Deal.isOut (d : Deal) : Bool := d.entry = some dealEntryOut ∨ d.entry = some dealEntryOutBy

def Deal.isInout (d : Deal) : Bool := d.entry = some dealEntryInout

/-- What makes two deals the same one; a deal without a ticket is the same as no other. -/
def Deal.key (d : Deal) : Option (String × Option ℤ) := d.ticket.map fun ticket => (ticket, d.entry)

def dealsOf (deals : List Deal) (pid : String) : List Deal := deals.filter (·.positionId = pid)

/-- The positions that deals can name: the empty text and zero stand for none. -/
def isPosition (pid : String) : Bool := pid ≠ "" ∧ pid ≠ "0"

/-! ### The figures of a position -/

/-- What the deals of a position add up to. -/
structure Figures where
  volume : ℚ
  openTime : Option Time
  openPrice : ℚ
  closeTime : Option Time
  closePrice : Option ℚ
  profit : ℚ
  commission : ℚ
  swap : ℚ
  deriving DecidableEq, Repr

structure Close where
  closeTime : Option Time
  closePrice : Option ℚ
  profit : ℚ
  commission : ℚ
  swap : ℚ
  deriving DecidableEq, Repr

def Figures.close (f : Figures) : Close where
  closeTime := f.closeTime
  closePrice := f.closePrice
  profit := f.profit
  commission := f.commission
  swap := f.swap

structure Position extends Figures where
  positionId : String
  symbol : String
  side : String
  comment : String
  magic : Option ℤ
  deriving DecidableEq, Repr

def ins (dl : List Deal) : List Deal := dl.filter Deal.isIn

def outs (dl : List Deal) : List Deal := dl.filter Deal.isOut

def inouts (dl : List Deal) : List Deal := dl.filter Deal.isInout

def sumOf (f : Deal → ℚ) (dl : List Deal) : ℚ := (dl.map f).sum

def turnover (dl : List Deal) : ℚ := sumOf (fun d => d.price * d.volume) dl

def inVol (dl : List Deal) : ℚ :=
  if sumOf Deal.volume (ins dl) = 0 then ((ins dl).head?.map Deal.volume).getD 0
  else sumOf Deal.volume (ins dl)

def outVol (dl : List Deal) : ℚ := sumOf Deal.volume (outs dl)

def openPrice (dl : List Deal) : ℚ :=
  if inVol dl = 0 then ((ins dl).head?.map Deal.price).getD 0 else turnover (ins dl) / inVol dl

def openTime (dl : List Deal) : Option Time := ((ins dl).filterMap Deal.time).min?

/-- Fail-closed: a part of the volume closed leaves the position open. -/
def IsClosed (dl : List Deal) : Prop := outs dl ≠ [] ∧ inVol dl ≤ outVol dl + 1 / 10 ^ 9

instance (dl : List Deal) : Decidable (IsClosed dl) := by
  unfold IsClosed
  infer_instance

def closePrice (dl : List Deal) : ℚ :=
  if outVol dl = 0 then ((outs dl).getLast?.map Deal.price).getD 0
  else turnover (outs dl) / outVol dl

def closeTime (dl : List Deal) : Option Time := ((outs dl).filterMap Deal.time).max?

def figures (dl : List Deal) : Figures where
  volume := inVol dl
  openTime := openTime dl
  openPrice := quantizeEven 5 (openPrice dl)
  closeTime := if IsClosed dl then closeTime dl else none
  closePrice := if IsClosed dl then some (quantizeEven 5 (closePrice dl)) else none
  profit := if IsClosed dl then sumOf Deal.profit (outs dl) else sumOf Deal.profit dl
  commission := sumOf Deal.commission dl
  swap := sumOf Deal.swap dl

/-- The record of one position, from the deals that a snapshot lists for it.  A reversal cannot be
represented, and without an opening deal there is no position. -/
def buildPosition (pid : String) (listed : List Deal) : Option Position :=
  let dl := firsts Deal.key listed
  if inouts dl ≠ [] then none
  else
    match ins dl with
    | [] => none
    | firstIn :: _ =>
      some
        { toFigures := figures dl
          positionId := pid
          symbol := firstIn.symbol
          side := if firstIn.type = "0" then "BUY" else "SELL"
          comment := firstIn.comment
          magic := firstIn.magic }

def buildPositionsFromDeals (deals : List Deal) : List Position :=
  ((firsts some (deals.map Deal.positionId)).filter isPosition).filterMap fun pid =>
    buildPosition pid (dealsOf deals pid)

/-! ### What the figures depend on -/

variable {dl dl' rest : List Deal} {d : Deal} {pid : String}

@[simp] lemma mem_dealsOf {deals : List Deal} :
    d ∈ dealsOf deals pid ↔ d ∈ deals ∧ d.positionId = pid := by
  simp [dealsOf]

@[simp] lemma mem_ins : d ∈ ins dl ↔ d ∈ dl ∧ d.isIn := List.mem_filter

@[simp] lemma mem_outs : d ∈ outs dl ↔ d ∈ dl ∧ d.isOut := List.mem_filter

@[simp] lemma ins_append : ins (dl ++ rest) = ins dl ++ ins rest := List.filter_append ..

@[simp] lemma outs_append : outs (dl ++ rest) = outs dl ++ outs rest := List.filter_append ..

@[simp] lemma sumOf_append (f : Deal → ℚ) : sumOf f (dl ++ rest) = sumOf f dl + sumOf f rest := by
  simp [sumOf]

lemma sumOf_perm (f : Deal → ℚ) (h : dl.Perm dl') : sumOf f dl = sumOf f dl' :=
  (h.map f).sum_eq

lemma sumOf_nonneg {f : Deal → ℚ} (h : ∀ d ∈ dl, 0 ≤ f d) : 0 ≤ sumOf f dl :=
  List.sum_nonneg (by simpa using h)

lemma sumOf_eq_zero {f : Deal → ℚ} (h : ∀ d ∈ dl, f d = 0) : sumOf f dl = 0 :=
  List.sum_eq_zero (by simpa using h)

/-- Deals as a terminal lists them: at a time, and with a volume where they open or close. -/
def Regular (dl : List Deal) : Prop :=
  ∀ d ∈ dl, d.time.isSome ∧ (d.isIn ∨ d.isOut → 0 < d.volume)

lemma Regular.mono (h : Regular dl) (hsub : dl' ⊆ dl) : Regular dl' := fun d hd => h d (hsub hd)

lemma Regular.pos_ins (h : Regular dl) : ∀ d ∈ ins dl, 0 < d.volume := fun d hd =>
  (h d (mem_ins.mp hd).1).2 (.inl (mem_ins.mp hd).2)

lemma Regular.pos_outs (h : Regular dl) : ∀ d ∈ outs dl, 0 < d.volume := fun d hd =>
  (h d (mem_outs.mp hd).1).2 (.inr (mem_outs.mp hd).2)

lemma sumOf_volume_pos {l : List Deal} (hpos : ∀ d ∈ l, 0 < d.volume) (hl : l ≠ []) :
    0 < sumOf Deal.volume l := by
  obtain ⟨d, l, rfl⟩ := List.exists_cons_of_ne_nil hl
  have hrest : 0 ≤ sumOf Deal.volume l :=
    sumOf_nonneg fun e he => (hpos e (List.mem_cons_of_mem d he)).le
  have hd := hpos d List.mem_cons_self
  simp only [sumOf, List.map_cons, List.sum_cons] at hrest ⊢
  linarith

lemma Regular.inVol_eq (h : Regular dl) : inVol dl = sumOf Deal.volume (ins dl) := by
  unfold inVol
  split_ifs with hzero
  · have hnil : ins dl = [] := by
      by_contra hne
      exact (sumOf_volume_pos h.pos_ins hne).ne' hzero
    simp [hnil, sumOf]
  · rfl

lemma Regular.inVol_ne_zero (h : Regular dl) (hne : ins dl ≠ []) : inVol dl ≠ 0 := by
  rw [h.inVol_eq]
  exact (sumOf_volume_pos h.pos_ins hne).ne'

lemma Regular.outVol_ne_zero (h : Regular dl) (hne : outs dl ≠ []) : outVol dl ≠ 0 :=
  (sumOf_volume_pos h.pos_outs hne).ne'

lemma min?_perm {l l' : List Time} (h : l.Perm l') : l.min? = l'.min? := by
  ext t
  rw [List.min?_eq_some_iff, List.min?_eq_some_iff]
  simp [h.mem_iff]

lemma max?_perm {l l' : List Time} (h : l.Perm l') : l.max? = l'.max? := by
  ext t
  rw [List.max?_eq_some_iff, List.max?_eq_some_iff]
  simp [h.mem_iff]

lemma perm_eq_nil_iff {l l' : List Deal} (h : l.Perm l') : l = [] ↔ l' = [] :=
  ⟨fun hl => (hl ▸ h).symm.eq_nil, fun hl => (hl ▸ h).eq_nil⟩

/-! ### The opening half and the closing half -/

lemma openTime_congr (h : (ins dl).Perm (ins dl')) : openTime dl = openTime dl' :=
  min?_perm (h.filterMap _)

lemma inVol_congr (hdl : Regular dl) (hdl' : Regular dl') (h : (ins dl).Perm (ins dl')) :
    inVol dl = inVol dl' := by
  rw [hdl.inVol_eq, hdl'.inVol_eq]
  exact sumOf_perm _ h

lemma openPrice_congr (hdl : Regular dl) (hdl' : Regular dl') (h : (ins dl).Perm (ins dl'))
    (hne : ins dl ≠ []) : openPrice dl = openPrice dl' := by
  have hne' : ins dl' ≠ [] := mt (perm_eq_nil_iff h).mpr hne
  rw [openPrice, openPrice, if_neg (hdl.inVol_ne_zero hne), if_neg (hdl'.inVol_ne_zero hne'),
    inVol_congr hdl hdl' h]
  congr 1
  exact sumOf_perm _ h

/-- The closing half of the figures is that of the closing deals. -/
lemma closeTime_congr (h : (outs dl).Perm (outs dl')) : closeTime dl = closeTime dl' :=
  max?_perm (h.filterMap _)

lemma outVol_congr (h : (outs dl).Perm (outs dl')) : outVol dl = outVol dl' := sumOf_perm _ h

lemma closePrice_congr (hdl : Regular dl) (hdl' : Regular dl') (h : (outs dl).Perm (outs dl'))
    (hne : outs dl ≠ []) : closePrice dl = closePrice dl' := by
  have hne' : outs dl' ≠ [] := mt (perm_eq_nil_iff h).mpr hne
  rw [closePrice, closePrice, if_neg (hdl.outVol_ne_zero hne), if_neg (hdl'.outVol_ne_zero hne'),
    outVol_congr h]
  congr 1
  exact sumOf_perm _ h

lemma ins_perm (h : dl.Perm dl') : (ins dl).Perm (ins dl') := h.filter _

lemma outs_perm (h : dl.Perm dl') : (outs dl).Perm (outs dl') := h.filter _

lemma isClosed_congr (hdl : Regular dl) (hdl' : Regular dl') (hins : (ins dl).Perm (ins dl'))
    (houts : (outs dl).Perm (outs dl')) : IsClosed dl ↔ IsClosed dl' := by
  rw [IsClosed, IsClosed, inVol_congr hdl hdl' hins, outVol_congr houts, Ne, Ne,
    perm_eq_nil_iff houts]

/-- The figures of a position do not depend on the order of its deals. -/
theorem figures_perm (hdl : Regular dl) (h : dl.Perm dl') (hne : ins dl ≠ []) :
    figures dl = figures dl' := by
  have hdl' : Regular dl' := hdl.mono h.symm.subset
  have hclosed := isClosed_congr hdl hdl' (ins_perm h) (outs_perm h)
  have hprice : IsClosed dl' → closePrice dl = closePrice dl' := fun hc =>
    closePrice_congr hdl hdl' (outs_perm h) (hclosed.mpr hc).1
  simp only [figures, Figures.mk.injEq]
  refine ⟨inVol_congr hdl hdl' (ins_perm h), openTime_congr (ins_perm h), ?_, ?_, ?_, ?_,
    sumOf_perm _ h, sumOf_perm _ h⟩
  · rw [openPrice_congr hdl hdl' (ins_perm h) hne]
  · simp only [hclosed, closeTime_congr (outs_perm h)]
  · by_cases hc : IsClosed dl'
    · simp [hc, hclosed, hprice hc]
    · simp [hc, hclosed]
  · simp only [hclosed, sumOf_perm _ (outs_perm h), sumOf_perm _ h]

/-! ### A part of the deals -/

lemma isClosed_append (h : Regular (dl ++ rest)) (hrest : ins rest = []) (hclosed : IsClosed dl) :
    IsClosed (dl ++ rest) := by
  have hdl : Regular dl := h.mono (List.subset_append_left dl rest)
  have hpos : 0 ≤ sumOf Deal.volume (outs rest) := sumOf_nonneg fun d hd =>
    (h.pos_outs d (by simp [mem_outs.mp hd])).le
  refine ⟨by simp [hclosed.1], ?_⟩
  calc inVol (dl ++ rest) = inVol dl := by rw [h.inVol_eq, hdl.inVol_eq]; simp [hrest]
    _ ≤ outVol dl + 1 / 10 ^ 9 := hclosed.2
    _ ≤ outVol (dl ++ rest) + 1 / 10 ^ 9 := by simp [outVol, hpos]

lemma close_append (h : Regular (dl ++ rest))
    (hrest : ∀ d ∈ rest, d.isOut = false ∧ d.commission = 0 ∧ d.swap = 0)
    (hclosed : IsClosed (dl ++ rest)) :
    IsClosed dl ∧ (figures dl).close = (figures (dl ++ rest)).close := by
  have hdl : Regular dl := h.mono (List.subset_append_left dl rest)
  have houts : outs rest = [] := List.filter_eq_nil_iff.mpr fun d hd => by simp [(hrest d hd).1]
  have hsame : outs (dl ++ rest) = outs dl := by simp [houts]
  have hpos : 0 ≤ sumOf Deal.volume (ins rest) := sumOf_nonneg fun d hd =>
    (h.pos_ins d (by simp [mem_ins.mp hd])).le
  have hvol : outVol (dl ++ rest) = outVol dl := by rw [outVol, hsame, outVol]
  have hpart : IsClosed dl := by
    refine ⟨hsame ▸ hclosed.1, ?_⟩
    calc inVol dl ≤ inVol (dl ++ rest) := by rw [h.inVol_eq, hdl.inVol_eq]; simp [hpos]
      _ ≤ outVol (dl ++ rest) + 1 / 10 ^ 9 := hclosed.2
      _ = outVol dl + 1 / 10 ^ 9 := by rw [hvol]
  refine ⟨hpart, ?_⟩
  simp only [Figures.close, figures, if_pos hpart, if_pos hclosed, closeTime, closePrice, hvol,
    hsame, sumOf_append]
  rw [sumOf_eq_zero fun d hd => (hrest d hd).2.1, sumOf_eq_zero fun d hd => (hrest d hd).2.2]
  simp

lemma Regular.openTime_spec (h : Regular dl) (hne : ins dl ≠ []) :
    ∃ ot, openTime dl = some ot ∧ (∃ d ∈ ins dl, d.time = some ot) ∧
      ∀ d ∈ ins dl, ∀ t ∈ d.time, ot ≤ t := by
  obtain ⟨d, hd⟩ := List.exists_mem_of_ne_nil _ hne
  obtain ⟨t, ht⟩ := Option.isSome_iff_exists.mp (h d (mem_ins.mp hd).1).1
  have hmem : t ∈ (ins dl).filterMap Deal.time := List.mem_filterMap.mpr ⟨d, hd, ht⟩
  cases hot : openTime dl with
  | none =>
    rw [openTime, List.min?_eq_none_iff] at hot
    simp [hot] at hmem
  | some ot =>
    obtain ⟨hfirst, hle⟩ := List.min?_eq_some_iff.mp hot
    obtain ⟨e, he, heq⟩ := List.mem_filterMap.mp hfirst
    exact ⟨ot, rfl, ⟨e, he, heq⟩, fun d hd t ht => hle t (List.mem_filterMap.mpr ⟨d, hd, ht⟩)⟩

lemma Regular.closeTime_isSome (h : Regular dl) (hne : outs dl ≠ []) : (closeTime dl).isSome := by
  obtain ⟨d, hd⟩ := List.exists_mem_of_ne_nil _ hne
  obtain ⟨t, ht⟩ := Option.isSome_iff_exists.mp (h d (mem_outs.mp hd).1).1
  have hmem : t ∈ (outs dl).filterMap Deal.time := List.mem_filterMap.mpr ⟨d, hd, ht⟩
  cases hct : closeTime dl with
  | none =>
    rw [closeTime, List.max?_eq_none_iff] at hct
    simp [hct] at hmem
  | some ct => rfl

end TradeIngest
end GuvFX
