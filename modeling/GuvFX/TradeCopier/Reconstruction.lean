/-
# The copied book follows the master

A master is observed by polls only.  Each poll replaces the snapshot that the next difference is
taken against, while the copied book changes by the emitted events; a change below the tolerance
is not emitted but moves the snapshot.  So the tickets of the book are exact, its symbols and sides
are those at which a ticket appeared, and its numbers stray from the observed ones by one tolerance
for each poll since an event last set them.
-/
import Mathlib.Data.List.TakeWhile
import Mathlib.Tactic.Linarith
import GuvFX.Lib.Runs
import GuvFX.TradeCopier.Ledger

namespace GuvFX
namespace Reconstruction

open Decimal Diff Observer Ledger Runs
open Reconcile (MasterReadResult)

/-! ### Runs of polls -/

structure CommittedPoll where
  read : List ObservedPosition
  events : List MasterEvent
  deriving DecidableEq, Repr

/-- A master with the polls that were committed for it, oldest first. -/
structure Watched where
  master : Master
  polls : List CommittedPoll
  deriving DecidableEq

/-- What happens to a master that is observed by polls only. -/
inductive Action where
  /-- The lease is claimed, released or taken over. -/
  | lease (token : String) (leaseUntil : Option Time)
  | record (now : Time) (result : MasterReadResult) (leaseToken : Option String)

/-- One step; a read that is discarded and a recording that fails leave the master as it is. -/
def step (w : Watched) : Action → Watched
  | .lease token leaseUntil =>
    { w with
      master := { w.master with
        observationLeaseToken := token, observationLeaseUntil := leaseUntil } }
  | .record now result leaseToken =>
    match recordObservation now result leaseToken w.master with
    | .ok (m, .recorded _ _) =>
      { master := m
        polls := w.polls ++
          [{ read := result.positions, events := m.events.drop w.master.events.length }] }
    | _ => w

def start : Watched := { master := Master.new, polls := [] }

/-- The book that the ledger gives over the snapshot of the poll `first`. -/
def copiedBook (first : CommittedPoll) (m : Master) : Book :=
  reconstruct (first.read.map storePosition) m.events

/-! ### Since when a value stands -/

def setsVolume : EventType → Bool
  | .open_ | .partialClose | .volumeIncrease => true
  | _ => false

def setsSl : EventType → Bool
  | .open_ | .slSet | .slChange | .slRemove => true
  | _ => false

def setsTp : EventType → Bool
  | .open_ | .tpSet | .tpChange | .tpRemove => true
  | _ => false

/-- Does a poll emit an event of the ticket `t` of one of the given types? -/
def CommittedPoll.sets (sets : EventType → Bool) (t : ℤ) (poll : CommittedPoll) : Bool :=
  poll.events.any fun e => e.spec.ticket = t && sets e.spec.eventType

/-- The number of the last polls without an event of the ticket `t` of one of the given types. -/
def pollsSince (sets : EventType → Bool) (t : ℤ) (polls : List CommittedPoll) : ℕ :=
  (polls.reverse.takeWhile fun poll => !poll.sets sets t).length

/-- The position of the ticket `t` as it appeared: at the first of the last polls that show the
ticket without a break. -/
def appearance (t : ℤ) (polls : List CommittedPoll) : Option ObservedPosition :=
  (polls.reverse.takeWhile fun poll => (index poll.read t).isSome).getLast?.bind
    fun poll => index poll.read t

/-! ### One tolerance for each poll -/

/-- The copied volume `r` after `k` polls without a volume event, where `v` was read last. -/
def VolumeTracks (k : ℕ) (r v : ℚ) : Prop :=
  |r - storeVolume v| ≤ volumeEps * k ∧ |r - v| ≤ volumeEps * (max 1 k : ℕ)

/-- The copied level `r` after `k` polls without an event of the level, where `v` was read last.
A level near zero is stored as no level, which may be one tolerance away. -/
def LevelTracks (k : ℕ) (r v : Option ℚ) : Prop :=
  ((levelToDecimal v).getD 0 = 0 ∧ |r.getD 0| ≤ priceEps * (k + 1) ∨
      |r.getD 0 - (levelToDecimal v).getD 0| ≤ priceEps * k) ∧
    |r.getD 0 - v.getD 0| ≤ priceEps * (k + 1)

lemma volumeTracks_zero (v : ℚ) : VolumeTracks 0 (storeVolume v) v := by
  refine ⟨by simp, ?_⟩
  have hround := abs_quantize_sub_le 3 v
  have heps : (1 : ℚ) / 2 / 10 ^ 3 ≤ volumeEps := by norm_num [volumeEps]
  calc |storeVolume v - v| ≤ 1 / 2 / 10 ^ 3 := hround
    _ ≤ volumeEps * (max 1 0 : ℕ) := by simpa using heps

lemma onGrid_volumeEps : OnGrid 3 volumeEps := ⟨5, by norm_num [volumeEps]⟩

lemma onGrid_priceEps : OnGrid 10 priceEps := ⟨10, by norm_num [priceEps]⟩

lemma VolumeTracks.succ {k : ℕ} {r v v' : ℚ} (h : VolumeTracks k r v)
    (hv : |v' - storeVolume v| ≤ volumeEps) : VolumeTracks (k + 1) r v' := by
  have hstored : |storeVolume v' - storeVolume v| ≤ volumeEps :=
    abs_quantize_sub_le_of_onGrid (onGrid_quantize 3 v) onGrid_volumeEps hv
  have hfar : ∀ x, |x - storeVolume v| ≤ volumeEps → |r - x| ≤ volumeEps * (k + 1 : ℕ) := by
    intro x hx
    calc |r - x| ≤ |r - storeVolume v| + |storeVolume v - x| := abs_sub_le _ _ _
      _ ≤ volumeEps * k + volumeEps := add_le_add h.1 (by rwa [abs_sub_comm])
      _ = volumeEps * (k + 1 : ℕ) := by push_cast; ring
  have hmax : ((k + 1 : ℕ) : ℚ) ≤ (max 1 (k + 1) : ℕ) := by exact_mod_cast le_max_right 1 (k + 1)
  exact ⟨hfar _ hstored, (hfar _ hv).trans (mul_le_mul_of_nonneg_left hmax volumeEps_pos.le)⟩

lemma levelTracks_event (v : Option ℚ) : LevelTracks 0 (numToDecimal v) v := by
  cases v with
  | none => simp [LevelTracks, numToDecimal, levelToDecimal, priceEps_pos.le]
  | some x =>
    have hround : |quantize 10 x - x| ≤ priceEps :=
      (abs_quantize_sub_le 10 x).trans (by norm_num [priceEps])
    refine ⟨?_, by simpa [numToDecimal] using hround⟩
    simp only [levelToDecimal]
    split_ifs with hsmall
    · left
      have hzero : |quantize 10 x - 0| ≤ priceEps :=
        abs_quantize_sub_le_of_onGrid onGrid_zero onGrid_priceEps
          (by simpa [priceEps] using hsmall)
      simpa [numToDecimal] using hzero
    · right
      simp [numToDecimal]

lemma levelTracks_baseline (v : Option ℚ) : LevelTracks 0 (levelToDecimal v) v := by
  refine ⟨Or.inr (by simp), ?_⟩
  cases v with
  | none => simp [levelToDecimal, priceEps_pos.le]
  | some x =>
    simp only [levelToDecimal]
    split_ifs with hsmall
    · simpa [priceEps] using hsmall
    · have hround : |quantize 10 x - x| ≤ priceEps :=
        (abs_quantize_sub_le 10 x).trans (by norm_num [priceEps])
      simpa using hround

lemma levelToDecimal_near {s : ℚ} (hs : OnGrid 10 s) {v' : Option ℚ}
    (hv : |v'.getD 0 - s| ≤ priceEps) :
    (levelToDecimal v').getD 0 = 0 ∧ |v'.getD 0| ≤ priceEps ∨
      |(levelToDecimal v').getD 0 - s| ≤ priceEps := by
  cases v' with
  | none => simp [levelToDecimal, priceEps_pos.le]
  | some x =>
    simp only [levelToDecimal]
    split_ifs with hsmall
    · exact Or.inl ⟨rfl, by simpa [priceEps] using hsmall⟩
    · exact Or.inr (by simpa using abs_quantize_sub_le_of_onGrid hs onGrid_priceEps hv)

lemma onGrid_levelToDecimal (v : Option ℚ) : OnGrid 10 ((levelToDecimal v).getD 0) := by
  cases v with
  | none => exact onGrid_zero
  | some x =>
    simp only [levelToDecimal]
    split_ifs
    · exact onGrid_zero
    · exact onGrid_quantize 10 x

lemma LevelTracks.succ {k : ℕ} {r v v' : Option ℚ} (h : LevelTracks k r v)
    (hv : levelsDiffer (levelToDecimal v) v' = false) : LevelTracks (k + 1) r v' := by
  have hnear : |v'.getD 0 - (levelToDecimal v).getD 0| ≤ priceEps := by
    rw [abs_sub_comm]
    simpa [levelsDiffer] using hv
  have hread : |r.getD 0 - v'.getD 0| ≤ priceEps * (k + 1 + 1) := by
    rcases h.1 with ⟨hzero, hr⟩ | hr
    · rw [hzero, sub_zero] at hnear
      have htri : |r.getD 0 - v'.getD 0| ≤ |r.getD 0| + |v'.getD 0| := abs_sub _ _
      linarith
    · have htri := abs_sub_le (r.getD 0) ((levelToDecimal v).getD 0) (v'.getD 0)
      rw [abs_sub_comm ((levelToDecimal v).getD 0)] at htri
      linarith [priceEps_pos]
  refine ⟨?_, by push_cast; exact hread⟩
  push_cast
  rcases levelToDecimal_near (onGrid_levelToDecimal v) hnear with ⟨hzero, hsmall⟩ | hclose
  · -- stored as no level: what is copied is not farther from zero than from what was read
    refine Or.inl ⟨hzero, ?_⟩
    rcases h.1 with ⟨-, hr⟩ | hr
    · linarith [priceEps_pos]
    · have htri := abs_sub_le (r.getD 0) ((levelToDecimal v).getD 0) (v'.getD 0)
      have htri' := abs_sub_le (r.getD 0) (v'.getD 0) 0
      rw [abs_sub_comm ((levelToDecimal v).getD 0)] at htri
      rw [sub_zero, sub_zero] at htri'
      linarith
  · rcases h.1 with ⟨hzero, hr⟩ | hr
    · -- it was stored as no level before, and the new value is too near to zero to be stored
      rw [hzero, sub_zero] at hclose hnear
      left
      cases v' with
      | none => exact ⟨rfl, by linarith [priceEps_pos]⟩
      | some x =>
        have hx : |x| ≤ 1 / 1000000000 := by simpa [priceEps] using hnear
        have hnone : levelToDecimal (some x) = none := if_pos hx
        exact ⟨by rw [hnone]; rfl, by linarith [priceEps_pos]⟩
    · right
      have htri := abs_sub_le (r.getD 0) ((levelToDecimal v).getD 0) ((levelToDecimal v').getD 0)
      rw [abs_sub_comm ((levelToDecimal v).getD 0)] at htri
      linarith

/-! ### The events of one poll -/

/-- The events that a poll with the snapshot `new` emits over the stored snapshot `prev`. -/
lemma sets_ledgerRows (sets : EventType → Bool) (t : ℤ) (base : ℕ) (now : Time)
    (read prev new : List ObservedPosition) :
    CommittedPoll.sets sets t
        { read := read
          events := ledgerRows base .poll (fun _ => none) now (diffPositions prev new) }
      = (ticketEvents (index prev t) (index new t)).any fun e => sets e.eventType := by
  have hspecs : ∀ es : List MasterEvent,
      (es.any fun e => e.spec.ticket = t && sets e.spec.eventType)
        = (es.map (·.spec)).any fun e => e.ticket = t && sets e.eventType := by
    intro es
    rw [List.any_map]
    rfl
  rw [CommittedPoll.sets, hspecs, map_spec_ledgerRows, List.any_map,
    ← filter_diffPositions, List.any_filter]
  rfl

def volumeChanges (before after : ObservedPosition) : Bool :=
  volumeEps < |after.volume - before.volume|

lemma volumeChanges_eq_false {before after : ObservedPosition} :
    volumeChanges before after = false ↔ |after.volume - before.volume| ≤ volumeEps := by
  simp [volumeChanges]

lemma volumeEvents_cases (before after : ObservedPosition) :
    (volumeChanges before after = false ∧ volumeEvents before after = []) ∨
      (volumeChanges before after = true ∧ ∃ eventType,
        (eventType = .partialClose ∨ eventType = .volumeIncrease) ∧
        volumeEvents before after =
          [{ eventType, ticket := after.ticket, symbol := after.symbol, side := after.side
             volumeBefore := before.volume, volumeAfter := after.volume }]) := by
  simp only [volumeEvents]
  split_ifs with hdown hup
  · refine Or.inr ⟨?_, .partialClose, Or.inl rfl, rfl⟩
    rw [volumeChanges, decide_eq_true_iff, lt_abs]
    exact Or.inr (by linarith)
  · refine Or.inr ⟨?_, .volumeIncrease, Or.inr rfl, rfl⟩
    rw [volumeChanges, decide_eq_true_iff, lt_abs]
    exact Or.inl hup
  · refine Or.inl ⟨?_, rfl⟩
    rw [volumeChanges_eq_false, abs_le]
    exact ⟨by linarith, by linarith⟩

lemma foldl_volumeEvents (before after : ObservedPosition) (c : Copy) :
    ((volumeEvents before after).map storeSpec).foldl applySpec (some c)
      = some { c with
          volume := if volumeChanges before after then storeVolume after.volume else c.volume } := by
  rcases volumeEvents_cases before after with ⟨hno, hev⟩ | ⟨hyes, eventType, htype, hev⟩
  · simp [hno, hev]
  · rcases htype with rfl | rfl <;> simp [hyes, hev, applySpec, storeSpec]

lemma foldl_slEvents (before after : ObservedPosition) (c : Copy) :
    ((slEvents before after).map storeSpec).foldl applySpec (some c)
      = some { c with
          sl := if levelsDiffer before.sl after.sl then numToDecimal after.sl else c.sl } := by
  cases hdiff : levelsDiffer before.sl after.sl with
  | false => simp [slEvents, hdiff]
  | true =>
    simp only [slEvents, hdiff, levelEventType]
    split_ifs <;> simp [applySpec, storeSpec]

lemma foldl_tpEvents (before after : ObservedPosition) (c : Copy) :
    ((tpEvents before after).map storeSpec).foldl applySpec (some c)
      = some { c with
          tp := if levelsDiffer before.tp after.tp then numToDecimal after.tp else c.tp } := by
  cases hdiff : levelsDiffer before.tp after.tp with
  | false => simp [tpEvents, hdiff]
  | true =>
    simp only [tpEvents, hdiff, levelEventType]
    split_ifs <;> simp [applySpec, storeSpec]

/-- **A position in both snapshots.**  Each of its three numbers is set if its event is emitted,
and stands otherwise; symbol and side stand. -/
lemma foldl_ticketEvents_both (before after : ObservedPosition) (c : Copy) :
    ((ticketEvents (some before) (some after)).map storeSpec).foldl applySpec (some c)
      = some { c with
          volume := if volumeChanges before after then storeVolume after.volume else c.volume
          sl := if levelsDiffer before.sl after.sl then numToDecimal after.sl else c.sl
          tp := if levelsDiffer before.tp after.tp then numToDecimal after.tp else c.tp } := by
  simp only [ticketEvents, levelEvents, List.map_append, List.foldl_append]
  rw [foldl_volumeEvents, foldl_slEvents, foldl_tpEvents]

lemma any_ticketEvents_both (before after : ObservedPosition) :
    ((ticketEvents (some before) (some after)).any fun e => setsVolume e.eventType)
        = volumeChanges before after ∧
      ((ticketEvents (some before) (some after)).any fun e => setsSl e.eventType)
        = levelsDiffer before.sl after.sl ∧
      ((ticketEvents (some before) (some after)).any fun e => setsTp e.eventType)
        = levelsDiffer before.tp after.tp := by
  simp only [ticketEvents, levelEvents, slEvents, tpEvents, levelEventType, List.any_append]
  rcases volumeEvents_cases before after with ⟨hvol, hev⟩ | ⟨hvol, eventType, htype, hev⟩
  · rw [hev, hvol]
    split_ifs <;> simp_all [setsVolume, setsSl, setsTp]
  · rw [hev, hvol]
    rcases htype with rfl | rfl <;> split_ifs <;> simp_all [setsVolume, setsSl, setsTp]

/-! ### What is known of one ticket -/

/-- What the ledger knows of one ticket: nothing when it is not open, and else a copy with the
symbol and the side of its appearance and with numbers that track what was read last. -/
def Known (t : ℤ) (polls later : List CommittedPoll) :
    Option Copy → Option ObservedPosition → Prop
  | none, none => True
  | some c, some p =>
    (∃ q, appearance t polls = some q ∧ c.symbol = q.symbol ∧ c.side = q.side) ∧
      VolumeTracks (pollsSince setsVolume t later) c.volume p.volume ∧
      LevelTracks (pollsSince setsSl t later) c.sl p.sl ∧
      LevelTracks (pollsSince setsTp t later) c.tp p.tp
  | _, _ => False

variable {t : ℤ} {polls later : List CommittedPoll} {new : CommittedPoll}

lemma pollsSince_concat (sets : EventType → Bool) :
    pollsSince sets t (later ++ [new])
      = if new.sets sets t then 0 else pollsSince sets t later + 1 := by
  rw [pollsSince, List.reverse_concat, List.takeWhile_cons]
  cases new.sets sets t <;> simp [pollsSince]

lemma appearance_concat {a : ObservedPosition} (h : index new.read t = some a) :
    appearance t (polls ++ [new]) = some ((appearance t polls).getD a) := by
  rw [appearance, List.reverse_concat, List.takeWhile_cons_of_pos (by simp [h]), appearance]
  set block := polls.reverse.takeWhile fun poll => (index poll.read t).isSome with hblock
  cases hlast : block.getLast? with
  | none =>
    rw [List.getLast?_eq_none_iff.mp hlast]
    simp [h]
  | some poll =>
    -- every poll of the block shows the ticket
    have hmem : poll ∈ block := List.mem_of_getLast? hlast
    have hshown : (index poll.read t).isSome = true := by
      rw [hblock] at hmem
      simpa using List.mem_takeWhile_imp hmem
    obtain ⟨q, hq⟩ := Option.isSome_iff_exists.mp hshown
    rw [List.getLast?_cons, hlast]
    simp [hq]

lemma appearance_of_absent (h : ∀ last, polls.getLast? = some last → index last.read t = none) :
    appearance t polls = none := by
  rcases List.eq_nil_or_concat polls with rfl | ⟨init, last, rfl⟩
  · rfl
  · have habsent := h last (by simp)
    rw [List.concat_eq_append, appearance, List.reverse_concat,
      List.takeWhile_cons_of_neg (by simp [habsent])]
    rfl

/-- **One poll.**  What was known of a ticket before the poll, and the events the poll emits of
it, give what is known of it after the poll. -/
lemma Known.poll {book : Option Copy} {last : CommittedPoll} (hlast : polls.getLast? = some last)
    (h : Known t polls later book (index last.read t))
    (hsets : ∀ sets, new.sets sets t = (ticketEvents ((index last.read t).map storePosition)
      (index new.read t)).any fun e => sets e.eventType) :
    Known t (polls ++ [new]) (later ++ [new])
      (((ticketEvents ((index last.read t).map storePosition) (index new.read t)).map
        storeSpec).foldl applySpec book) (index new.read t) := by
  cases hb : index last.read t with
  | none =>
    rw [hb] at h hsets
    cases ha : index new.read t with
    | none =>
      cases book with
      | none => exact trivial
      | some c => exact h
    | some a =>
      -- the ticket appears: its opening sets everything
      rw [ha] at hsets
      have hopen : ∀ sets : EventType → Bool, sets .open_ = true → new.sets sets t = true := by
        intro sets hset
        simp [hsets sets, ticketEvents, hset]
      have happ : appearance t (polls ++ [new]) = some a := by
        have habsent : appearance t polls = none := by
          refine appearance_of_absent fun last' hlast' => ?_
          obtain rfl : last = last' := Option.some.inj (hlast.symm.trans hlast')
          exact hb
        rw [appearance_concat ha, habsent]
        rfl
      refine ⟨⟨a, happ, rfl, rfl⟩, ?_, ?_, ?_⟩
      · rw [pollsSince_concat, if_pos (hopen setsVolume rfl)]
        exact volumeTracks_zero a.volume
      · rw [pollsSince_concat, if_pos (hopen setsSl rfl)]
        exact levelTracks_event a.sl
      · rw [pollsSince_concat, if_pos (hopen setsTp rfl)]
        exact levelTracks_event a.tp
  | some b =>
    rw [hb] at h hsets
    cases book with
    | none => exact h.elim
    | some c =>
      obtain ⟨⟨q, hq, hsymbol, hside⟩, hvol, hsl, htp⟩ := h
      cases ha : index new.read t with
      | none => exact trivial
      | some a =>
        rw [ha] at hsets
        obtain ⟨hanyVol, hanySl, hanyTp⟩ := any_ticketEvents_both (storePosition b) a
        rw [Option.map_some, foldl_ticketEvents_both]
        refine ⟨⟨q, ?_, hsymbol, hside⟩, ?_, ?_, ?_⟩
        · rw [appearance_concat ha, hq]
          rfl
        · rw [pollsSince_concat, hsets, Option.map_some, hanyVol]
          cases hchange : volumeChanges (storePosition b) a with
          | true =>
            simp only [if_true]
            exact volumeTracks_zero a.volume
          | false =>
            have hsmall := volumeChanges_eq_false.mp hchange
            rw [storePosition_volume] at hsmall
            simp only [Bool.false_eq_true, if_false]
            exact hvol.succ hsmall
        · rw [pollsSince_concat, hsets, Option.map_some, hanySl]
          cases hchange : levelsDiffer (storePosition b).sl a.sl with
          | true =>
            simp only [if_true]
            exact levelTracks_event a.sl
          | false =>
            rw [storePosition_sl] at hchange
            simp only [Bool.false_eq_true, if_false]
            exact hsl.succ hchange
        · rw [pollsSince_concat, hsets, Option.map_some, hanyTp]
          cases hchange : levelsDiffer (storePosition b).tp a.tp with
          | true =>
            simp only [if_true]
            exact levelTracks_event a.tp
          | false =>
            rw [storePosition_tp] at hchange
            simp only [Bool.false_eq_true, if_false]
            exact htp.succ hchange

/-! ### Every run of polls -/

lemma step_cases (w : Watched) (a : Action) :
    ((step w a).polls = w.polls ∧ (step w a).master.lastPoll = w.master.lastPoll ∧
        (step w a).master.events = w.master.events) ∨
      ∃ now result poll, (result.positions.map (·.ticket)).Nodup ∧
        poll.positions = result.positions.map storePosition ∧
        step w a =
          { master := recordedMaster now result poll w.master
            polls := w.polls ++ [
              { read := result.positions
                events := ledgerRows (maxSequence w.master.events) .poll (fun _ => none) now
                  (observedChanges w.master result.positions) }] } := by
  cases a with
  | lease token leaseUntil => exact Or.inl ⟨rfl, rfl, rfl⟩
  | record now result leaseToken =>
    cases hrec : recordObservation now result leaseToken w.master with
    | error err => exact Or.inl (by simp [step, hrec])
    | ok mo =>
      obtain ⟨m, outcome⟩ := mo
      rcases recordObservation_cases hrec with ⟨rfl, rfl | rfl⟩ | ⟨-, -, poll, hstore, rfl, rfl⟩
      · exact Or.inl (by simp [step, hrec])
      · exact Or.inl (by simp [step, hrec])
      · obtain ⟨hnodup, -, hpositions⟩ := storeSnapshot_eq_ok hstore
        exact Or.inr ⟨now, result, poll, hnodup, hpositions, by simp [step, hrec, recordedMaster]⟩

/-- The ledger is numbered; before the first poll there is nothing, and after it the stored
snapshot is that of the last poll and the book knows every ticket. -/
def Following (w : Watched) : Prop :=
  Numbered w.master.events ∧
    match w.polls with
    | [] => w.master.lastPoll = none ∧ w.master.events = []
    | first :: later => ∃ last poll,
        (first :: later).getLast? = some last ∧
        w.master.lastPoll = some poll ∧ poll.positions = last.read.map storePosition ∧
        (last.read.map (·.ticket)).Nodup ∧
        ∀ t, Known t (first :: later) later (copiedBook first w.master t) (index last.read t)

lemma following_start : Following start := ⟨numbered_nil, rfl, rfl⟩

lemma known_baseline (first : CommittedPoll) (t : ℤ) :
    Known t [first] [] (bookOf (first.read.map storePosition) t) (index first.read t) := by
  rw [bookOf, index_map_storePosition]
  cases hp : index first.read t with
  | none => exact trivial
  | some p =>
    have happ : appearance t [first] = some p := by simp [appearance, hp]
    exact ⟨⟨p, happ, rfl, rfl⟩, volumeTracks_zero p.volume, levelTracks_baseline p.sl,
      levelTracks_baseline p.tp⟩

lemma following_step (w : Watched) (a : Action) (h : Following w) : Following (step w a) := by
  rcases step_cases w a with ⟨hpolls, hlast, hevents⟩ |
    ⟨now, result, poll, hnodup, hpositions, hstep⟩
  · unfold Following copiedBook
    rw [hpolls, hlast, hevents]
    exact h
  · rw [hstep]
    obtain ⟨hnum, hrest⟩ := h
    refine ⟨hnum.append .poll (fun _ => none) now _, ?_⟩
    cases hpolls : w.polls with
    | nil =>
      -- the first poll emits nothing
      rw [hpolls] at hrest
      obtain ⟨hnone, hempty⟩ := hrest
      refine ⟨_, poll, rfl, rfl, hpositions, hnodup, fun t => ?_⟩
      have hnochange : observedChanges w.master result.positions = [] := by
        rw [observedChanges, hnone]
      have hledger : (recordedMaster now result poll w.master).events = [] := by
        simp [recordedMaster, hnochange, hempty, ledgerRows]
      rw [copiedBook, hledger, reconstruct_of_numbered numbered_nil]
      exact known_baseline _ t
    | cons first later =>
      rw [hpolls] at hrest
      obtain ⟨last, prev, hlast, hprev, hprevPositions, -, hknown⟩ := hrest
      have hchanges : observedChanges w.master result.positions
          = diffPositions (last.read.map storePosition) result.positions := by
        rw [← hprevPositions, observedChanges, hprev]
      have hnew : ∀ new : CommittedPoll, (first :: (later ++ [new])).getLast? = some new :=
        fun new => List.getLast?_concat (l := first :: later)
      refine ⟨_, poll, hnew _, rfl, hpositions, hnodup, fun t => ?_⟩
      -- the events of the poll take the book of the ticket one step further
      have hbook : copiedBook first (recordedMaster now result poll w.master) t
          = (((ticketEvents ((index last.read t).map storePosition)
              (index result.positions t)).map storeSpec).foldl applySpec
                (copiedBook first w.master t)) := by
        have hnum' := hnum.append .poll (fun _ => none) now
          (observedChanges w.master result.positions)
        rw [copiedBook, recordedMaster, reconstruct_of_numbered hnum', copiedBook,
          reconstruct_of_numbered hnum, List.map_append, List.foldl_append, map_spec_ledgerRows,
          hchanges, foldl_applyEvent_diff, index_map_storePosition]
      rw [hbook]
      refine (hknown t).poll hlast fun sets => ?_
      rw [hchanges, sets_ledgerRows, index_map_storePosition]

/-! ### What a reader of the ledger may rely on -/

/-- The copied position `c` against the position `p` that was read last. -/
structure Follows (first : CommittedPoll) (later : List CommittedPoll) (c : Copy)
    (p : ObservedPosition) : Prop where
  /-- Symbol and side are those at which the ticket appeared. -/
  identity : ∃ q, appearance p.ticket (first :: later) = some q ∧
    c.symbol = q.symbol ∧ c.side = q.side
  volume : |c.volume - p.volume| ≤
    volumeEps * (max 1 (pollsSince setsVolume p.ticket later) : ℕ)
  sl : |c.sl.getD 0 - p.sl.getD 0| ≤ priceEps * (pollsSince setsSl p.ticket later + 1)
  tp : |c.tp.getD 0 - p.tp.getD 0| ≤ priceEps * (pollsSince setsTp p.ticket later + 1)

/-- **The copied book follows the master.**  After every sequence of polls, the events in the order
of their numbers over the first snapshot give the tickets of the last poll, each with the symbol
and the side of its appearance and with numbers within one tolerance for each poll since they were
last set. -/
theorem copied_book_follows (as : List Action) {first last : CommittedPoll}
    {later : List CommittedPoll} (hpolls : (run step start as).polls = first :: later)
    (hlast : (first :: later).getLast? = some last) :
    (∀ t, (copiedBook first (run step start as).master t).isSome = true ↔
      ∃ p ∈ last.read, p.ticket = t) ∧
    ∀ p ∈ last.read, ∃ c, copiedBook first (run step start as).master p.ticket = some c ∧
      Follows first later c p := by
  have h : Following (run step start as) := run_invariant following_step following_start as
  obtain ⟨-, hrest⟩ := h
  rw [hpolls] at hrest
  obtain ⟨last', poll, hlast', -, -, hnodup, hknown⟩ := hrest
  obtain rfl : last' = last := Option.some.inj (hlast'.symm.trans hlast)
  constructor
  · intro t
    have hk := hknown t
    cases hp : index last'.read t with
    | none =>
      rw [hp] at hk
      have habsent : ¬ ∃ p ∈ last'.read, p.ticket = t := by
        rintro ⟨p, hmem, hpt⟩
        exact index_eq_none_iff.mp hp p hmem hpt
      cases hc : copiedBook first (run step start as).master t with
      | none => simpa using habsent
      | some c =>
        rw [hc] at hk
        exact hk.elim
    | some p =>
      rw [hp] at hk
      cases hc : copiedBook first (run step start as).master t with
      | none =>
        rw [hc] at hk
        exact hk.elim
      | some c => simpa using ⟨p, mem_of_index hp, ticket_of_index hp⟩
  · intro p hmem
    have hk := hknown p.ticket
    rw [(index_eq_some_iff hnodup).mpr ⟨hmem, rfl⟩] at hk
    cases hc : copiedBook first (run step start as).master p.ticket with
    | none =>
      rw [hc] at hk
      exact hk.elim
    | some c =>
      rw [hc] at hk
      obtain ⟨hid, hvol, hsl, htp⟩ := hk
      exact ⟨c, rfl, hid, hvol.2, hsl.2, htp.2⟩

/-! ### A drift below the tolerance -/

/-- One position of the ticket 7 with the volume `v`. -/
def driftPosition (v : ℚ) : ObservedPosition :=
  { ticket := 7, symbol := "EURUSD", side := "BUY", volume := v, sl := none, tp := none
    comment := "" }

/-- Three polls that read the volumes 1, 1.004 and 1.008. -/
def drift : List Action :=
  [1, 1004 / 1000, 1008 / 1000].map fun v => .record 0
    { ok := true, reason := "ok", positions := [driftPosition v], readAt := none } none

/-- The book agrees with the last poll up to one tolerance. -/
def Reconstructs (w : Watched) : Prop :=
  ∀ first later last, w.polls = first :: later → (first :: later).getLast? = some last →
    (∀ t, (copiedBook first w.master t).isSome = true ↔ ∃ p ∈ last.read, p.ticket = t) ∧
    ∀ p ∈ last.read, ∃ c, copiedBook first w.master p.ticket = some c ∧
      c.symbol = p.symbol ∧ c.side = p.side ∧ |c.volume - p.volume| ≤ volumeEps ∧
      |c.sl.getD 0 - p.sl.getD 0| ≤ priceEps ∧ |c.tp.getD 0 - p.tp.getD 0| ≤ priceEps

lemma run_drift_polls : (run step start drift).polls =
    [1, 1004 / 1000, 1008 / 1000].map fun v => { read := [driftPosition v], events := [] } := by
  decide +kernel

lemma run_drift_events : (run step start drift).master.events = [] := by decide +kernel

/-- **The book may stray.**  Two changes below the tolerance add up to one above it, and no event
is ever emitted. -/
theorem drift_not_reconstructed : ¬ Reconstructs (run step start drift) := by
  intro h
  obtain ⟨-, hclose⟩ := h _ _ _ run_drift_polls rfl
  obtain ⟨c, hc, -, -, hvol, -⟩ := hclose (driftPosition (1008 / 1000)) (by simp)
  rw [copiedBook, run_drift_events] at hc
  obtain rfl := Option.some.inj hc
  revert hvol
  decide +kernel

/-- The drift within the bounds. -/
theorem copied_book_follows_drift :
    ∃ c, copiedBook { read := [driftPosition 1], events := [] } (run step start drift).master 7
        = some c ∧
      Follows { read := [driftPosition 1], events := [] }
        [{ read := [driftPosition (1004 / 1000)], events := [] },
          { read := [driftPosition (1008 / 1000)], events := [] }]
        c (driftPosition (1008 / 1000)) :=
  (copied_book_follows drift run_drift_polls rfl).2 (driftPosition (1008 / 1000)) (by simp)

end Reconstruction
end GuvFX
