/-
# Monthly chunks

A range of time, from a minute to a later one, is planned in pieces that end with the months: a cursor
goes from the start of the range to the next start of a month, until it is at the end.  The pieces are
written as texts.  The start of the month after the last month of the calendar does not exist, and
the plan of a range that ends within the last month fails on it.
-/
import Mathlib.Data.List.Chain
import GuvFX.MarketData.TimContracts

namespace GuvFX
namespace MarketData
namespace Chunking

open Calendar (DateTime Written Number)

/-- A minute of the calendar. -/
structure Moment where
  t : DateTime
  valid : t.Valid
  aligned : t.second = 0

namespace Moment

def fields (m : Moment) : List ℕ := [m.t.year, m.t.month, m.t.day, m.t.hour, m.t.minute]

def Before (m n : Moment) : Prop := m.fields < n.fields

instance (m n : Moment) : Decidable (m.Before n) := by
  unfold Before; infer_instance

def monthIndex (m : Moment) : ℕ := m.t.year * 12 + m.t.month

def MonthStart (m : Moment) : Prop := m.t.day = 1 ∧ m.t.hour = 0 ∧ m.t.minute = 0

variable {m n : Moment}

lemma before_iff : m.Before n ↔ m.t.year < n.t.year ∨ m.t.year = n.t.year ∧
    (m.t.month < n.t.month ∨ m.t.month = n.t.month ∧ (m.t.day < n.t.day ∨ m.t.day = n.t.day ∧
      (m.t.hour < n.t.hour ∨ m.t.hour = n.t.hour ∧ m.t.minute < n.t.minute))) := by
  simp [Before, fields, List.cons_lt_cons_iff]

lemma monthIndex_le (h : m.Before n) : m.monthIndex ≤ n.monthIndex := by
  obtain ⟨-, hm, -⟩ := m.valid
  obtain ⟨-, hn, -⟩ := n.valid
  rw [before_iff] at h
  unfold monthIndex
  omega

lemma before_monthStart (h : n.MonthStart) : m.Before n ↔ m.monthIndex < n.monthIndex := by
  obtain ⟨-, hm, hd, -⟩ := m.valid
  obtain ⟨-, hn, -⟩ := n.valid
  obtain ⟨hday, hhour, hminute⟩ := h
  rw [before_iff]
  unfold monthIndex
  omega

end Moment

open Moment

/-- The end of the last month but one of the calendar. -/
def lastStart : Moment := ⟨⟨9999, 12, 1, 0, 0, 0⟩, by decide, rfl⟩

def nextMonthStart (c : Moment) : Except ContractError Moment :=
  if hmonth : c.t.month = 12 then
    if hyear : c.t.year + 1 ≤ 9999 then
      .ok ⟨⟨c.t.year + 1, 1, 1, 0, 0, 0⟩, by simp [DateTime.Valid, Calendar.daysInMonth, hyear], rfl⟩
    else .error (.exception "ValueError")
  else
    .ok ⟨⟨c.t.year, c.t.month + 1, 1, 0, 0, 0⟩, by
      obtain ⟨hy, hm, -⟩ := c.valid
      simp only [DateTime.Valid, Calendar.daysInMonth]
      split_ifs <;> omega, rfl⟩

lemma of_nextMonthStart {c b : Moment} (h : nextMonthStart c = .ok b) :
    b.MonthStart ∧ b.monthIndex = c.monthIndex + 1 := by
  unfold nextMonthStart at h
  split_ifs at h with hmonth hyear
  · cases h
    exact ⟨⟨rfl, rfl, rfl⟩, by simp only [monthIndex]; omega⟩
  · cases h
    exact ⟨⟨rfl, rfl, rfl⟩, by simp only [monthIndex]; omega⟩

lemma exists_nextMonthStart {c : Moment} :
    (∃ b, nextMonthStart c = .ok b) ↔ c.monthIndex < lastStart.monthIndex := by
  obtain ⟨hy, hm, -⟩ := c.valid
  have hlast : lastStart.monthIndex = 120000 := rfl
  rw [hlast]
  unfold nextMonthStart monthIndex
  split_ifs with hmonth hyear
  · exact iff_of_true ⟨_, rfl⟩ (by omega)
  · exact iff_of_false (fun ⟨b, h⟩ => by cases h) (by omega)
  · exact iff_of_true ⟨_, rfl⟩ (by omega)

/-! ### Texts -/

def parse (value : Json) (field : String) : Except ContractError Moment :=
  match value with
  | .str s =>
    if minuteUtcRe s then
      match Calendar.readDateTime s.toList with
      | some (t, ['Z']) =>
        if h : t.Valid ∧ t.second = 0 then .ok ⟨t, h.1, h.2⟩ else .error (.notCalendar field)
      | _ => .error (.notCalendar field)
    else .error (.notMinute field)
  | _ => .error (.notMinute field)

def twoDigits (n : ℕ) : List Char := [Nat.digitChar (n / 10 % 10), Nat.digitChar (n % 10)]

def fmt (m : Moment) : String :=
  .ofList (twoDigits (m.t.year / 100) ++ twoDigits m.t.year ++ '-' :: twoDigits m.t.month ++
    '-' :: twoDigits m.t.day ++ 'T' :: twoDigits m.t.hour ++ ':' :: twoDigits m.t.minute ++
    [':', '0', '0', 'Z'])

lemma digitChar_spec : ∀ d < 10, ('0' ≤ Nat.digitChar d ∧ Nat.digitChar d ≤ '9') ∧
    (Nat.digitChar d).toNat - '0'.toNat = d := by decide

lemma number_twoDigits {n : ℕ} (h : n < 100) : Number 2 n (twoDigits n) := by
  have hten := digitChar_spec (n / 10 % 10) (Nat.mod_lt _ (by decide))
  have hone := digitChar_spec (n % 10) (Nat.mod_lt _ (by decide))
  refine ⟨rfl, by simp [Calendar.Digits, twoDigits, hten.1, hone.1], ?_⟩
  simp only [Calendar.numberFrom, twoDigits, List.foldl_cons, List.foldl_nil, hten.2, hone.2]
  omega

lemma number_fourDigits {n : ℕ} (h : n < 10000) :
    Number 4 n (twoDigits (n / 100) ++ twoDigits n) := by
  have hspec := fun k => digitChar_spec (k % 10) (Nat.mod_lt _ (by decide))
  refine ⟨rfl, by simp [Calendar.Digits, twoDigits, hspec], ?_⟩
  simp only [Calendar.numberFrom, twoDigits, List.cons_append, List.nil_append, List.foldl_cons,
    List.foldl_nil, hspec]
  omega

/-- What is written is read. -/
lemma parse_fmt (m : Moment) (field : String) : parse (.str (fmt m)) field = .ok m := by
  obtain ⟨⟨-, hy⟩, ⟨-, hm⟩, ⟨-, hd⟩, hh, hi, -⟩ := m.valid
  have hday : m.t.day < 100 := by
    have hbound : Calendar.daysInMonth m.t.year m.t.month ≤ 31 := by
      unfold Calendar.daysInMonth
      split_ifs <;> decide
    omega
  have hread : Calendar.readDateTime (fmt m).toList = some (m.t, ['Z']) := by
    refine Calendar.readDateTime_eq_some.mpr ⟨_, ⟨_, _, _, _, _, ['0', '0'],
      number_fourDigits (by omega), number_twoDigits (by omega), number_twoDigits hday,
      number_twoDigits (by omega), number_twoDigits (by omega), ?_, rfl⟩, ?_⟩
    · rw [m.aligned]
      exact ⟨rfl, by simp [Calendar.Digits], rfl⟩
    · simp [fmt]
  have hre : minuteUtcRe (fmt m) = true := by
    unfold minuteUtcRe
    rw [hread]
    simp [fmt, twoDigits, atEnd]
  simp only [parse, hre, if_true, hread, m.valid, m.aligned, and_self, dite_true]

/-! ### The plan -/

structure Chunk where
  startUtc : String
  endUtc : String

def chunksFrom (stop cursor : Moment) : Except ContractError (List Chunk) :=
  if hlt : cursor.Before stop then
    match hb : nextMonthStart cursor with
    | .error e => .error e
    | .ok boundary =>
      let chunkEnd := if boundary.Before stop then boundary else stop
      (chunksFrom stop chunkEnd).map (⟨fmt cursor, fmt chunkEnd⟩ :: ·)
  else .ok []
termination_by if cursor.Before stop then stop.monthIndex + 1 - cursor.monthIndex else 0
decreasing_by
  have hnext := (of_nextMonthStart hb).2
  have hle := monthIndex_le hlt
  have hself : ¬ stop.Before stop := lt_irrefl stop.fields
  by_cases hin : boundary.Before stop
  · have hle := monthIndex_le hin
    simp only [hin, hlt, ↓reduceDIte, ↓reduceIte]
    omega
  · simp only [hin, hself, hlt, ↓reduceDIte, ↓reduceIte]
    omega

lemma chunksFrom_of_before {stop cursor boundary : Moment} (hlt : cursor.Before stop)
    (hb : nextMonthStart cursor = .ok boundary) :
    chunksFrom stop cursor =
      let chunkEnd := if boundary.Before stop then boundary else stop
      (chunksFrom stop chunkEnd).map (⟨fmt cursor, fmt chunkEnd⟩ :: ·) := by
  rw [chunksFrom, dif_pos hlt]
  split
  · rename_i e he
    rw [hb] at he
    cases he
  · rename_i b hb'
    rw [hb] at hb'
    cases hb'
    rfl

lemma chunksFrom_self (stop : Moment) : chunksFrom stop stop = .ok [] := by
  have hself : ¬ stop.Before stop := lt_irrefl stop.fields
  rw [chunksFrom, dif_neg hself]

def monthlyChunks (rangeStart rangeEnd : Json) : Except ContractError (List Chunk) :=
  match parse rangeStart "range_start_utc", parse rangeEnd "range_end_utc" with
  | .error e, _ | .ok _, .error e => .error e
  | .ok start, .ok stop =>
    if start.Before stop then chunksFrom stop start
    else .error (.rule "range_end_utc" "must be later than range_start_utc")

/-! ### What a plan is for -/

def Reads (s : String) (m : Moment) : Prop := ∀ field, parse (.str s) field = .ok m

structure Partition (start stop : Moment) (chunks : List Chunk) : Prop where
  first : ∃ c ∈ chunks.head?, c.startUtc = fmt start ∧ Reads c.startUtc start
  last : ∃ c ∈ chunks.getLast?, c.endUtc = fmt stop ∧ Reads c.endUtc stop
  /-- A chunk ends where the next one starts, and there a month starts. -/
  adjacent : chunks.IsChain fun c d =>
    c.endUtc = d.startUtc ∧ ∃ m, Reads c.endUtc m ∧ m.MonthStart
  within : ∀ c ∈ chunks, ∃ a b, Reads c.startUtc a ∧ Reads c.endUtc b ∧ a.Before b ∧
    ∀ m : Moment, m.MonthStart → a.Before m → ¬ m.Before b

lemma within_month {c m : Moment} {b : Moment} (hb : nextMonthStart c = .ok b) (hm : m.MonthStart)
    (hcm : c.Before m) : ¬ m.Before b := by
  have hidx := (before_monthStart hm).mp hcm
  obtain ⟨hstart, hnext⟩ := of_nextMonthStart hb
  rw [before_monthStart hstart]
  omega

lemma Partition.cons {start mid stop : Moment} {chunks : List Chunk} (h : Partition mid stop chunks)
    (hc : ∃ a b, Reads (fmt start) a ∧ Reads (fmt mid) b ∧ a.Before b ∧
      ∀ m : Moment, m.MonthStart → a.Before m → ¬ m.Before b) (hmid : mid.MonthStart) :
    Partition start stop (⟨fmt start, fmt mid⟩ :: chunks) := by
  obtain ⟨d, hd, hfirst, -⟩ := h.first
  obtain ⟨e, he, hend⟩ := h.last
  cases chunks with
  | nil => cases hd
  | cons d' ds =>
    cases hd
    refine ⟨⟨_, rfl, rfl, parse_fmt start⟩, ⟨e, ?_, hend⟩, ?_, List.forall_mem_cons.mpr ⟨hc, h.within⟩⟩
    · rwa [List.getLast?_cons_cons]
    · exact .cons_cons ⟨hfirst.symm, mid, parse_fmt mid, hmid⟩ h.adjacent

lemma exists_partition (stop cursor : Moment) (hlt : cursor.Before stop)
    (hstop : ¬ lastStart.Before stop) :
    ∃ chunks, chunksFrom stop cursor = .ok chunks ∧ Partition cursor stop chunks := by
  -- the months from the cursor to the end
  induction hn : stop.monthIndex - cursor.monthIndex using Nat.strong_induction_on
    generalizing cursor with
  | _ n ih =>
    subst hn
    have hlast : cursor.monthIndex < lastStart.monthIndex :=
      (before_monthStart ⟨rfl, rfl, rfl⟩).mp (lt_of_lt_of_le hlt (not_lt.mp hstop))
    obtain ⟨boundary, hb⟩ := exists_nextMonthStart.mpr hlast
    obtain ⟨hmonth, hnext⟩ := of_nextMonthStart hb
    rw [chunksFrom_of_before hlt hb]
    -- the first chunk ends at the next start of a month or at the end
    by_cases hin : boundary.Before stop
    · obtain ⟨chunks, hchunks, hpart⟩ :=
        ih _ (by have := monthIndex_le hin; omega) boundary hin rfl
      simp only [hin, if_true, hchunks]
      refine ⟨_, rfl, hpart.cons ?_ hmonth⟩
      exact ⟨cursor, boundary, parse_fmt cursor, parse_fmt boundary,
        (before_monthStart hmonth).mpr (by omega), fun m hm hcm => within_month hb hm hcm⟩
    · simp only [hin, if_false, chunksFrom_self]
      refine ⟨_, rfl, ⟨_, rfl, rfl, parse_fmt cursor⟩, ⟨_, rfl, rfl, parse_fmt stop⟩, .singleton _, ?_⟩
      simp only [List.mem_singleton, forall_eq]
      exact ⟨cursor, stop, parse_fmt cursor, parse_fmt stop, hlt, fun m hm hcm hms =>
        within_month hb hm hcm (lt_of_lt_of_le hms (not_lt.mp hin))⟩

lemma chunksFrom_ne_ok (stop cursor : Moment) (hlt : cursor.Before stop)
    (hstop : lastStart.Before stop) (chunks : List Chunk) : chunksFrom stop cursor ≠ .ok chunks := by
  induction hn : stop.monthIndex - cursor.monthIndex using Nat.strong_induction_on
    generalizing cursor chunks with
  | _ n ih =>
    subst hn
    intro h
    cases hb : nextMonthStart cursor with
    | error e =>
      rw [chunksFrom, dif_pos hlt] at h
      split at h
      · cases h
      · rename_i b hb'
        rw [hb] at hb'
        cases hb'
    | ok boundary =>
      obtain ⟨hmonth, hnext⟩ := of_nextMonthStart hb
      have hidx := exists_nextMonthStart.mp ⟨_, hb⟩
      have hlast := monthIndex_le hstop
      -- the boundary is not after the start of the last month
      have hin : boundary.Before stop := by
        refine lt_of_le_of_lt (not_lt.mp fun h => ?_) hstop
        have := (before_monthStart hmonth).mp h
        omega
      rw [chunksFrom_of_before hlt hb] at h
      simp only [hin, if_true] at h
      cases hrest : chunksFrom stop boundary with
      | error e => rw [hrest] at h; cases h
      | ok rest => exact ih _ (by omega) boundary hin rest rfl hrest

/-- A range has a plan, which partitions it, exactly when it ends before the last month. -/
theorem exists_partition_iff {rangeStart rangeEnd : Json} {start stop : Moment}
    (hstart : parse rangeStart "range_start_utc" = .ok start)
    (hstop : parse rangeEnd "range_end_utc" = .ok stop) (hlt : start.Before stop) :
    (∃ chunks, monthlyChunks rangeStart rangeEnd = .ok chunks ∧ Partition start stop chunks) ↔
      ¬ lastStart.Before stop := by
  simp only [monthlyChunks, hstart, hstop, if_pos hlt]
  constructor
  · rintro ⟨chunks, hchunks, -⟩ hlast
    exact chunksFrom_ne_ok stop start hlt hlast chunks hchunks
  · exact exists_partition stop start hlt

def dayStart (year month day : ℕ) (h : (⟨year, month, day, 0, 0, 0⟩ : DateTime).Valid) : Moment :=
  ⟨_, h, rfl⟩

theorem exists_partition_winter :
    ∃ chunks, monthlyChunks (.str (fmt (dayStart 2025 11 5 (by decide))))
      (.str (fmt (dayStart 2026 3 1 (by decide)))) = .ok chunks ∧
      Partition (dayStart 2025 11 5 (by decide)) (dayStart 2026 3 1 (by decide)) chunks :=
  (exists_partition_iff (parse_fmt _ _) (parse_fmt _ _) (by decide)).mpr (by decide)

/-- A day of the last month has no plan. -/
theorem not_exists_partition : ¬ ∀ rangeStart rangeEnd start stop,
    parse rangeStart "range_start_utc" = .ok start → parse rangeEnd "range_end_utc" = .ok stop →
      start.Before stop →
        ∃ chunks, monthlyChunks rangeStart rangeEnd = .ok chunks ∧ Partition start stop chunks := by
  intro h
  have hlt : lastStart.Before (dayStart 9999 12 2 (by decide)) := by decide
  obtain ⟨chunks, hchunks, -⟩ := h (.str (fmt lastStart)) (.str (fmt (dayStart 9999 12 2 (by decide))))
    _ _ (parse_fmt _ _) (parse_fmt _ _) hlt
  simp only [monthlyChunks, parse_fmt, if_pos hlt] at hchunks
  exact chunksFrom_ne_ok _ _ hlt hlt chunks hchunks

end Chunking
end MarketData
end GuvFX
