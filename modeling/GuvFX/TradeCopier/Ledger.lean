/-
# The ledger of a master

The events of a master are numbered one by one, and each of them says what happened to the
position of its ticket.  Applied in the order of their numbers over a set of open positions they
give the positions that a reader of the ledger believes to be open: the copied book.
-/
import GuvFX.TradeCopier.Observer

namespace GuvFX
namespace Ledger

open Diff Observer

/-! ### The numbers -/

def Numbered (events : List MasterEvent) : Prop :=
  events.map (·.sequence) = List.range' 1 events.length

def inSequence (events : List MasterEvent) : List MasterEvent :=
  events.insertionSort fun e e' => e.sequence ≤ e'.sequence

variable {events : List MasterEvent}

lemma numbered_nil : Numbered [] := rfl

lemma foldl_max_range' (n : ℕ) : (List.range' 1 n).foldl max 0 = n := by
  induction n with
  | zero => rfl
  | succ n ih =>
    rw [List.range'_1_concat, List.foldl_append, ih]
    simp [Nat.add_comm 1 n]

lemma Numbered.maxSequence (h : Numbered events) : maxSequence events = events.length := by
  rw [Observer.maxSequence, h, foldl_max_range']

@[simp] lemma length_ledgerRows (base : ℕ) (source : DetectionSource)
    (time : EventSpec → Option Time) (now : Time) (specs : List EventSpec) :
    (ledgerRows base source time now specs).length = specs.length := by
  simp [ledgerRows]

lemma map_sequence_ledgerRows (base : ℕ) (source : DetectionSource)
    (time : EventSpec → Option Time) (now : Time) (specs : List EventSpec) :
    (ledgerRows base source time now specs).map (·.sequence)
      = List.range' (base + 1) specs.length := by
  rw [ledgerRows, List.map_map]
  exact List.zipIdx_map_snd (base + 1) specs

lemma map_spec_ledgerRows (base : ℕ) (source : DetectionSource)
    (time : EventSpec → Option Time) (now : Time) (specs : List EventSpec) :
    (ledgerRows base source time now specs).map (·.spec) = specs.map storeSpec := by
  rw [ledgerRows, List.map_map]
  calc (specs.zipIdx (base + 1)).map (fun e => storeSpec e.1)
      = ((specs.zipIdx (base + 1)).map Prod.fst).map storeSpec := by rw [List.map_map]; rfl
    _ = specs.map storeSpec := by rw [List.zipIdx_map_fst]

lemma Numbered.append (h : Numbered events) (source : DetectionSource)
    (time : EventSpec → Option Time) (now : Time) (specs : List EventSpec) :
    Numbered (events ++ ledgerRows (Observer.maxSequence events) source time now specs) := by
  rw [Numbered, List.map_append, h, map_sequence_ledgerRows, h.maxSequence, List.length_append,
    length_ledgerRows, Nat.add_comm events.length 1]
  exact List.range'_append_1

lemma Numbered.pairwise (h : Numbered events) :
    events.Pairwise fun e e' => e.sequence ≤ e'.sequence := by
  have hrange : (events.map (·.sequence)).Pairwise (· ≤ ·) := by
    rw [h]
    exact (List.pairwise_lt_range' 1).imp Nat.le_of_lt
  exact List.pairwise_map.mp hrange

lemma Numbered.inSequence (h : Numbered events) : Ledger.inSequence events = events :=
  h.pairwise.insertionSort_eq

/-! ### The copied book -/

/-- An open position as the events of the ledger describe it. -/
structure Copy where
  symbol : String
  side : String
  volume : ℚ
  sl : Option ℚ
  tp : Option ℚ
  deriving DecidableEq, Repr

/-- The copied positions under their tickets. -/
abbrev Book := ℤ → Option Copy

def applySpec (c : Option Copy) (e : EventSpec) : Option Copy :=
  match e.eventType with
  | .open_ => some
    { symbol := e.symbol, side := e.side, volume := e.volumeAfter, sl := e.newSl, tp := e.newTp }
  | .fullClose => none
  | .partialClose | .volumeIncrease => c.map fun c => { c with volume := e.volumeAfter }
  | .slSet | .slChange | .slRemove => c.map fun c => { c with sl := e.newSl }
  | .tpSet | .tpChange | .tpRemove => c.map fun c => { c with tp := e.newTp }

def applyEvent (book : Book) (e : EventSpec) : Book :=
  Function.update book e.ticket (applySpec (book e.ticket) e)

def copyOf (p : ObservedPosition) : Copy :=
  { symbol := p.symbol, side := p.side, volume := p.volume, sl := p.sl, tp := p.tp }

def bookOf (positions : List ObservedPosition) : Book := fun t => (index positions t).map copyOf

/-- The events in the order of their numbers, applied over a set of open positions. -/
def reconstruct (baseline : List ObservedPosition) (events : List MasterEvent) : Book :=
  ((inSequence events).map (·.spec)).foldl applyEvent (bookOf baseline)

lemma foldl_applyEvent (specs : List EventSpec) (book : Book) (t : ℤ) :
    specs.foldl applyEvent book t = (specs.filter (·.ticket = t)).foldl applySpec (book t) := by
  induction specs generalizing book with
  | nil => rfl
  | cons e specs ih =>
    rw [List.foldl_cons, ih]
    by_cases het : e.ticket = t
    · subst het
      simp [applyEvent]
    · simp [applyEvent, Function.update_of_ne (Ne.symm het), het]

lemma reconstruct_of_numbered (h : Numbered events) (baseline : List ObservedPosition) :
    reconstruct baseline events = (events.map (·.spec)).foldl applyEvent (bookOf baseline) := by
  rw [reconstruct, h.inSequence]

lemma filter_map_storeSpec (specs : List EventSpec) (t : ℤ) :
    (specs.map storeSpec).filter (·.ticket = t) = (specs.filter (·.ticket = t)).map storeSpec := by
  rw [List.filter_map]
  rfl

/-- **What the events of one difference do to a ticket.**  They take the book from what it was to
what the events of the ticket say. -/
lemma foldl_applyEvent_diff (prev new : List ObservedPosition) (book : Book) (t : ℤ) :
    ((diffPositions prev new).map storeSpec).foldl applyEvent book t
      = ((ticketEvents (index prev t) (index new t)).map storeSpec).foldl applySpec (book t) := by
  rw [foldl_applyEvent, filter_map_storeSpec, filter_diffPositions]

end Ledger
end GuvFX
