/-
# The difference of two observations of a master

Given the open positions of one master account at two observations, `diffPositions` lists the
events that lead from the first to the second, ordered by ticket and, for one ticket, by the
order of its lifecycle.  Volumes and protective levels are compared up to a tolerance, and a
level that is absent counts as the level zero.

Numbers are rationals throughout: a float of the source stands for the decimal it was read from.
-/
import Mathlib.Algebra.Order.Ring.Rat
import Mathlib.Algebra.Order.Group.Abs
import Mathlib.Data.List.Dedup
import Mathlib.Data.List.Sort
import Mathlib.Tactic.NormNum

namespace GuvFX
namespace Diff

/-- The events of one ticket between two observations. -/
inductive EventType where
  | open_
  | fullClose
  | partialClose
  | volumeIncrease
  | slSet
  | slChange
  | slRemove
  | tpSet
  | tpChange
  | tpRemove
  deriving DecidableEq, Repr

/-- The place of an event among the events of its ticket. -/
def typeOrder : EventType → ℕ
  | .open_ => 0
  | .volumeIncrease => 1
  | .partialClose => 2
  | .slSet | .slChange | .slRemove => 3
  | .tpSet | .tpChange | .tpRemove => 4
  | .fullClose => 5

/-- Half of the smallest lot step: a smaller change of the volume is not an event. -/
def volumeEps : ℚ := 5 / 1000

/-- A smaller change of a protective level is not an event. -/
def priceEps : ℚ := 1 / 1000000000

lemma volumeEps_pos : 0 < volumeEps := by norm_num [volumeEps]

lemma priceEps_pos : 0 < priceEps := by norm_num [priceEps]

structure ObservedPosition where
  ticket : ℤ
  symbol : String
  side : String
  volume : ℚ
  sl : Option ℚ
  tp : Option ℚ
  comment : String
  deriving DecidableEq, Repr

/-- A detected change. -/
structure EventSpec where
  eventType : EventType
  ticket : ℤ
  symbol : String
  side : String
  volumeBefore : ℚ
  volumeAfter : ℚ
  prevSl : Option ℚ := none
  newSl : Option ℚ := none
  prevTp : Option ℚ := none
  newTp : Option ℚ := none
  deriving DecidableEq, Repr

def hasLevel : Option ℚ → Bool
  | none => false
  | some v => priceEps < |v|

def levelsDiffer (a b : Option ℚ) : Bool := priceEps < |a.getD 0 - b.getD 0|

def index (positions : List ObservedPosition) (ticket : ℤ) : Option ObservedPosition :=
  positions.reverse.find? fun p => p.ticket = ticket

def levelEventType (set change remove : EventType) (prev new : Option ℚ) : EventType :=
  if !hasLevel prev && hasLevel new then set
  else if hasLevel prev && !hasLevel new then remove
  else change

/-- The event of the stop-loss of a position present in both observations. -/
def slEvents (prev new : ObservedPosition) : List EventSpec :=
  if levelsDiffer prev.sl new.sl then
    [{ eventType := levelEventType .slSet .slChange .slRemove prev.sl new.sl
       ticket := new.ticket, symbol := new.symbol, side := new.side
       volumeBefore := prev.volume, volumeAfter := new.volume
       prevSl := prev.sl, newSl := new.sl }]
  else []

/-- The event of the take-profit of a position present in both observations. -/
def tpEvents (prev new : ObservedPosition) : List EventSpec :=
  if levelsDiffer prev.tp new.tp then
    [{ eventType := levelEventType .tpSet .tpChange .tpRemove prev.tp new.tp
       ticket := new.ticket, symbol := new.symbol, side := new.side
       volumeBefore := prev.volume, volumeAfter := new.volume
       prevTp := prev.tp, newTp := new.tp }]
  else []

def levelEvents (prev new : ObservedPosition) : List EventSpec :=
  slEvents prev new ++ tpEvents prev new

def volumeEvents (before after : ObservedPosition) : List EventSpec :=
  let dv := after.volume - before.volume
  let event (eventType : EventType) : EventSpec :=
    { eventType, ticket := after.ticket, symbol := after.symbol, side := after.side
      volumeBefore := before.volume, volumeAfter := after.volume }
  if dv < -volumeEps then [event .partialClose]
  else if volumeEps < dv then [event .volumeIncrease]
  else []

def ticketEvents : Option ObservedPosition → Option ObservedPosition → List EventSpec
  | none, none => []
  | none, some after =>
    [{ eventType := .open_, ticket := after.ticket, symbol := after.symbol, side := after.side
       volumeBefore := 0, volumeAfter := after.volume
       newSl := after.sl, newTp := after.tp }]
  | some before, none =>
    [{ eventType := .fullClose, ticket := before.ticket, symbol := before.symbol
       side := before.side, volumeBefore := before.volume, volumeAfter := 0
       prevSl := before.sl, prevTp := before.tp }]
  | some before, some after => volumeEvents before after ++ levelEvents before after

/-- The order of emission: by ticket, then by the place in the lifecycle. -/
def EmittedBefore (e e' : EventSpec) : Prop :=
  e.ticket < e'.ticket ∨ e.ticket = e'.ticket ∧ typeOrder e.eventType ≤ typeOrder e'.eventType

instance : DecidableRel EmittedBefore := fun _ _ =>
  inferInstanceAs (Decidable (_ ∨ _ ∧ _))

def tickets (prev new : List ObservedPosition) : List ℤ := ((prev ++ new).map (·.ticket)).dedup

/-- The ordered events that lead from one observation to the next. -/
def diffPositions (prev new : List ObservedPosition) : List EventSpec :=
  ((tickets prev new).flatMap fun t => ticketEvents (index prev t) (index new t)).insertionSort
    EmittedBefore

/-! ### Positions under their tickets -/

variable {prev new ps : List ObservedPosition} {t : ℤ}

lemma ticket_of_index {p : ObservedPosition} (h : index ps t = some p) : p.ticket = t := by
  simpa using List.find?_some h

lemma mem_of_index {p : ObservedPosition} (h : index ps t = some p) : p ∈ ps :=
  List.mem_reverse.mp (List.mem_of_find?_eq_some h)

lemma index_eq_none_iff : index ps t = none ↔ ∀ p ∈ ps, p.ticket ≠ t := by
  simp [index, List.find?_eq_none]

lemma index_eq_some_iff (hps : (ps.map (·.ticket)).Nodup) {p : ObservedPosition} :
    index ps t = some p ↔ p ∈ ps ∧ p.ticket = t := by
  constructor
  · exact fun h => ⟨mem_of_index h, ticket_of_index h⟩
  · rintro ⟨hmem, rfl⟩
    cases hfind : index ps p.ticket with
    | none => exact absurd rfl (index_eq_none_iff.mp hfind p hmem)
    | some q =>
      have hq : q = p :=
        List.inj_on_of_nodup_map hps (mem_of_index hfind) hmem (ticket_of_index hfind)
      rw [hq]

lemma nodup_filterMap {keys : List ℤ} {f : ℤ → Option ObservedPosition}
    (hf : ∀ k p, f k = some p → p.ticket = k) (hkeys : keys.Nodup) :
    ((keys.filterMap f).map (·.ticket)).Nodup := by
  induction keys with
  | nil => exact List.nodup_nil
  | cons k keys ih =>
    obtain ⟨hnot, hrest⟩ := List.nodup_cons.mp hkeys
    rw [List.filterMap_cons]
    split
    · exact ih hrest
    · rename_i p hp
      rw [List.map_cons, List.nodup_cons]
      refine ⟨?_, ih hrest⟩
      rw [List.mem_map]
      rintro ⟨q, hq, hqp⟩
      obtain ⟨k', hk', hkq⟩ := List.mem_filterMap.mp hq
      have hkk : k' = k := by rw [← hf k' q hkq, hqp, hf k p hp]
      exact hnot (hkk ▸ hk')

lemma index_filterMap {keys : List ℤ} {f : ℤ → Option ObservedPosition}
    (hf : ∀ k p, f k = some p → p.ticket = k) (hkeys : keys.Nodup)
    (hmem : ∀ p, f t = some p → t ∈ keys) : index (keys.filterMap f) t = f t := by
  cases hft : f t with
  | none =>
    rw [index_eq_none_iff]
    rintro p hp rfl
    obtain ⟨k, -, hk⟩ := List.mem_filterMap.mp hp
    rw [← hf k p hk, hft] at hk
    cases hk
  | some p =>
    rw [index_eq_some_iff (nodup_filterMap hf hkeys)]
    exact ⟨List.mem_filterMap.mpr ⟨t, hmem p hft, hft⟩, hf t p hft⟩

/-! ### The events of one ticket within the whole difference -/

lemma ticket_of_mem_ticketEvents {before after : Option ObservedPosition} {e : EventSpec}
    (hb : ∀ p, before = some p → p.ticket = t) (ha : ∀ p, after = some p → p.ticket = t)
    (he : e ∈ ticketEvents before after) : e.ticket = t := by
  cases before with
  | none =>
    cases after with
    | none => simp [ticketEvents] at he
    | some a =>
      simp only [ticketEvents, List.mem_singleton] at he
      rw [he]
      exact ha a rfl
  | some b =>
    cases after with
    | none =>
      simp only [ticketEvents, List.mem_singleton] at he
      rw [he]
      exact hb b rfl
    | some a =>
      have hat : a.ticket = t := ha a rfl
      simp only [ticketEvents, List.mem_append, levelEvents] at he
      rcases he with hvol | hsl | htp
      · simp only [volumeEvents] at hvol
        split_ifs at hvol <;> simp_all
      · simp only [slEvents] at hsl
        split_ifs at hsl <;> simp_all
      · simp only [tpEvents] at htp
        split_ifs at htp <;> simp_all

lemma ticket_of_mem_diff_ticket {e : EventSpec}
    (he : e ∈ ticketEvents (index prev t) (index new t)) : e.ticket = t :=
  ticket_of_mem_ticketEvents (fun _ => ticket_of_index) (fun _ => ticket_of_index) he

lemma pairwise_ticketEvents :
    (ticketEvents (index prev t) (index new t)).Pairwise EmittedBefore := by
  cases hb : index prev t with
  | none => cases index new t <;> simp [ticketEvents]
  | some b =>
    cases ha : index new t with
    | none => simp [ticketEvents]
    | some a =>
      -- volume before stop-loss before take-profit, all on the ticket of `a`
      simp only [ticketEvents, levelEvents, volumeEvents, slEvents, tpEvents, levelEventType]
      split_ifs <;> simp [EmittedBefore, typeOrder]

lemma mem_tickets : t ∈ tickets prev new ↔ ∃ p, (p ∈ prev ∨ p ∈ new) ∧ p.ticket = t := by
  simp [tickets, or_and_right, exists_or]

lemma ticketEvents_of_not_mem (h : t ∉ tickets prev new) :
    ticketEvents (index prev t) (index new t) = [] := by
  have hno : ∀ p, (p ∈ prev ∨ p ∈ new) → p.ticket ≠ t := fun p hp hpt =>
    h (mem_tickets.mpr ⟨p, hp, hpt⟩)
  rw [index_eq_none_iff.mpr fun p hp => hno p (Or.inl hp),
    index_eq_none_iff.mpr fun p hp => hno p (Or.inr hp)]
  rfl

lemma filter_flatMap_ticketEvents (ts : List ℤ) (hts : ts.Nodup) :
    (ts.flatMap fun t' => ticketEvents (index prev t') (index new t')).filter (·.ticket = t)
      = if t ∈ ts then ticketEvents (index prev t) (index new t) else [] := by
  induction ts with
  | nil => rfl
  | cons t' ts ih =>
    obtain ⟨hnot, hnodup⟩ := List.nodup_cons.mp hts
    rw [List.flatMap_cons, List.filter_append, ih hnodup]
    by_cases heq : t' = t
    · subst heq
      have hself : ∀ e ∈ ticketEvents (index prev t') (index new t'), e.ticket = t' :=
        fun e he => ticket_of_mem_diff_ticket he
      rw [List.filter_eq_self.mpr (by simpa using hself)]
      simp [hnot]
    · have hother : ∀ e ∈ ticketEvents (index prev t') (index new t'), ¬ e.ticket = t :=
        fun e he hte => heq ((ticket_of_mem_diff_ticket he).symm.trans hte)
      rw [List.filter_eq_nil_iff.mpr (by simpa using hother)]
      simp [Ne.symm heq]

/-- **The events of one ticket.**  The difference of two observations, restricted to a ticket,
is the list of the events of that ticket, in their order. -/
theorem filter_diffPositions (prev new : List ObservedPosition) (t : ℤ) :
    (diffPositions prev new).filter (·.ticket = t)
      = ticketEvents (index prev t) (index new t) := by
  set unsorted := (tickets prev new).flatMap fun t' => ticketEvents (index prev t') (index new t')
    with hunsorted
  have hfilter : unsorted.filter (·.ticket = t) = ticketEvents (index prev t) (index new t) := by
    rw [hunsorted, filter_flatMap_ticketEvents (tickets prev new) (List.nodup_dedup _)]
    split_ifs with hmem
    · rfl
    · exact (ticketEvents_of_not_mem hmem).symm
  have hsub : (unsorted.filter (·.ticket = t)).Sublist (diffPositions prev new) := by
    refine List.sublist_insertionSort ?_ List.filter_sublist
    rw [hfilter]
    exact pairwise_ticketEvents
  have hsub' : (unsorted.filter (·.ticket = t)).Sublist
      ((diffPositions prev new).filter (·.ticket = t)) := by
    simpa [List.filter_filter] using hsub.filter (·.ticket = t)
  have hlen : ((diffPositions prev new).filter (·.ticket = t)).length
      = (unsorted.filter (·.ticket = t)).length :=
    ((List.perm_insertionSort _ _).filter _).length_eq
  rw [← hfilter]
  exact (hsub'.eq_of_length hlen.symm).symm

/-! ### The listing of the positions -/

instance : Std.Total EmittedBefore := ⟨fun e e' => by unfold EmittedBefore; omega⟩

instance : IsTrans EventSpec EmittedBefore := ⟨fun _ _ _ => by unfold EmittedBefore; omega⟩

lemma nodup_typeOrder (before after : Option ObservedPosition) :
    ((ticketEvents before after).map (typeOrder ·.eventType)).Nodup := by
  cases before <;> cases after <;> simp only [ticketEvents, volumeEvents, levelEvents, slEvents,
    tpEvents, levelEventType, List.map_nil, List.nodup_nil, List.map_singleton, List.nodup_singleton]
  split_ifs <;> simp [typeOrder]

/-- The order of emission leaves no choice among the events of a difference. -/
lemma eq_of_emittedBefore {e e' : EventSpec} (he : e ∈ diffPositions prev new)
    (he' : e' ∈ diffPositions prev new) (h : EmittedBefore e e') (h' : EmittedBefore e' e) :
    e = e' := by
  have hin : ∀ f ∈ diffPositions prev new, f.ticket = e'.ticket →
      f ∈ ticketEvents (index prev e'.ticket) (index new e'.ticket) := by
    intro f hf hft
    rw [← filter_diffPositions]
    exact List.mem_filter.mpr ⟨hf, by simpa using hft⟩
  have hsame : e.ticket = e'.ticket ∧ typeOrder e.eventType = typeOrder e'.eventType := by
    unfold EmittedBefore at h h'
    omega
  exact List.inj_on_of_nodup_map (nodup_typeOrder _ _) (hin e he hsame.1) (hin e' he' rfl) hsame.2

lemma index_perm {ps' : List ObservedPosition} (hps : (ps.map (·.ticket)).Nodup) (h : ps.Perm ps') :
    index ps t = index ps' t := by
  have hps' := (h.map (·.ticket)).nodup_iff.mp hps
  exact Option.ext fun p => by
    simp only [index_eq_some_iff hps, index_eq_some_iff hps', h.mem_iff]

/-- **The order of the listing.**  The difference does not depend on the order in which the broker lists
the positions. -/
theorem diffPositions_perm {prev' new' : List ObservedPosition}
    (hprev : (prev.map (·.ticket)).Nodup) (hnew : (new.map (·.ticket)).Nodup)
    (hpermPrev : prev.Perm prev') (hpermNew : new.Perm new') :
    diffPositions prev new = diffPositions prev' new' := by
  have hperm : (diffPositions prev new).Perm (diffPositions prev' new') := by
    refine List.perm_iff_count.mpr fun e => ?_
    rw [← List.count_filter (p := (·.ticket = e.ticket)) (by simp), filter_diffPositions,
      index_perm hprev hpermPrev, index_perm hnew hpermNew, ← filter_diffPositions,
      List.count_filter (by simp)]
  refine hperm.eq_of_pairwise (fun e e' he he' => ?_) (List.pairwise_insertionSort _ _)
    (List.pairwise_insertionSort _ _)
  exact eq_of_emittedBefore he (hperm.mem_iff.mpr he')

def unprotected (ticket : ℤ) : ObservedPosition := ⟨ticket, "EURUSD", "buy", 1, none, none, ""⟩

theorem diffPositions_perm_twoTickets : diffPositions [] [unprotected 1, unprotected 2] =
    diffPositions [] [unprotected 2, unprotected 1] :=
  diffPositions_perm (by decide) (by decide) (.refl _) (.swap _ _ _)

end Diff
end GuvFX
