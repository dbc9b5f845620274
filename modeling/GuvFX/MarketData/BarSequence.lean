/-
# Complete series of bars

The bars of a series are checked one after the other: each has the length of the time frame, lies
within the range and does not begin before the end of the last one.  Gaps are allowed.  A quality
report counts the bars of a range; it passes only when it counts as many as the range has room for.
Intervals of one length that do not overlap fill a range that has room for no more of them.
-/
import Mathlib.Data.List.Forall2
import Mathlib.Tactic.Linarith
import Mathlib.Tactic.Ring
import GuvFX.MarketData.TimContracts

namespace GuvFX
namespace MarketData
namespace BarSequence

/-! ### Intervals of one length -/

def consecutive (start step : ℤ) : ℕ → List ℤ
  | 0 => []
  | n + 1 => start :: consecutive (start + step) step n

/-- Intervals that do not overlap are no more than the range has room for, and when they are as many
they are consecutive. -/
lemma tile {step : ℤ} {starts : List ℤ} {lo hi : ℤ} (hrange : lo ≤ hi)
    (hin : ∀ s ∈ starts, lo ≤ s ∧ s + step ≤ hi) (hord : starts.Pairwise fun s t => s + step ≤ t) :
    starts.length * step ≤ hi - lo ∧
      (starts.length * step = hi - lo → starts = consecutive lo step starts.length) := by
  induction starts generalizing lo with
  | nil => exact ⟨by simpa using hrange, fun _ => rfl⟩
  | cons s rest ih =>
    rw [List.pairwise_cons] at hord
    obtain ⟨hlo, hhi⟩ := hin s List.mem_cons_self
    obtain ⟨hle, heq⟩ := ih hhi
      (fun t ht => ⟨hord.1 t ht, (hin t (List.mem_cons_of_mem _ ht)).2⟩) hord.2
    have hlen : ((s :: rest).length : ℤ) * step = rest.length * step + step := by
      push_cast [List.length_cons]
      ring
    rw [hlen]
    refine ⟨by linarith, fun htotal => ?_⟩
    obtain rfl : s = lo := by linarith
    rw [List.length_cons, consecutive, ← heq (by linarith)]

/-! ### The checks -/

-- the finite number that a floating point number is, if it is one
variable (finite : FloatText → Option ℚ)

def number (obj : Json) (field place : String) : Except ContractError ℚ :=
  match get obj field with
  | some (.int n) => .ok n
  | some (.float x) =>
    match finite x with
    | some q => .ok q
    | none => .error (.rule (at_ place field) "must be finite (no NaN/Infinity)")
  | _ => .error (.rule (at_ place field) "must be a finite number")

def validateOhlc (bar : Json) (place : String) : Except ContractError Unit := do
  let o ← number finite bar "open" place
  let h ← number finite bar "high" place
  let low ← number finite bar "low" place
  let c ← number finite bar "close" place
  match get bar "volume" with
  | none | some .null => pure ()
  | some _ => discard (number finite bar "volume" place)
  ensure (h ≥ o ∧ h ≥ c ∧ h ≥ low) (.rule place "high must be >= open, close and low")
  ensure (low ≤ o ∧ low ≤ c ∧ low ≤ h) (.rule place "low must be <= open, close and high")

def barFields : List String :=
  ["event_start_utc", "event_end_utc", "open", "high", "low", "close", "volume"]

def checkBar (step rangeStart rangeEnd : ℤ) (prevEnd : Option ℤ) (seenStarts : List ℤ) (bar : Json)
    (place : String) : Except ContractError (ℤ × ℤ) := do
  exactKeys bar barFields place
  let s ← minuteEpoch (← item bar "event_start_utc") (at_ place "event_start_utc")
  let e ← minuteEpoch (← item bar "event_end_utc") (at_ place "event_end_utc")
  ensure (e = s + step) (.rule place "event_end must equal event_start + timeframe")
  ensure (¬ (s < rangeStart ∨ e > rangeEnd)) (.rule place "bar interval lies outside the range")
  ensure (s ∉ seenStarts) (.rule place "duplicate bar event_start")
  ensure (∀ p ∈ prevEnd, ¬ s < p) (.rule place "overlapping/out-of-order bar")
  validateOhlc finite bar place
  pure (s, e)

def checkBars (step rangeStart rangeEnd : ℤ) (place : String) :
    ℕ → Option ℤ → List ℤ → List Json → Except ContractError Unit
  | _, _, _, [] => .ok ()
  | i, prevEnd, seenStarts, bar :: bars => do
    let (s, e) ← checkBar finite step rangeStart rangeEnd prevEnd seenStarts bar
      (place ++ ".bars[" ++ toString i ++ "]")
    checkBars step rangeStart rangeEnd place (i + 1) (some e) (s :: seenStarts) bars

def validateBarSequence (bars : List Json) (timeframe : String) (rangeStart rangeEnd : ℤ)
    (place : String) : Except ContractError ℕ :=
  if timeframe ∈ timeframes then do
    checkBars finite (secondsOf timeframe) rangeStart rangeEnd place 0 none [] bars
    pure bars.length
  else .error (.exception "KeyError")

def qualityFields : List String :=
  ["schema_version", "source_id", "canonical_symbol", "timeframe", "representation", "price_basis",
    "provenance", "range_start_utc", "range_end_utc", "range_semantics", "expected_bar_count",
    "observed_bar_count", "duplicate_count", "out_of_order_count", "overlap_count",
    "ohlc_violation_count", "non_finite_count", "gap_count", "quality_status",
    "quarantine_reasons", "evaluated_at_utc", "limitations"]

def violationCounts : List String :=
  ["duplicate_count", "out_of_order_count", "overlap_count", "ohlc_violation_count",
    "non_finite_count"]

def validateQualityReport (obj : Json) : Except ContractError Unit := do
  noProhibited obj "quality"
  exactKeys obj qualityFields "quality"
  const obj "schema_version" "quality" "1.0"
  discard (str obj "source_id" "quality" { regex := some slugRe, maxLen := some 64 })
  discard (str obj "canonical_symbol" "quality" { regex := some canonicalSymbolRe })
  let timeframe ← str obj "timeframe" "quality" { oneOf := some timeframes }
  discard (str obj "representation" "quality" { oneOf := some ["bid_ohlc"] })
  discard (str obj "price_basis" "quality" { oneOf := some ["bid"] })
  discard (str obj "provenance" "quality" { oneOf := some ["NATIVE", "DERIVED"] })
  let rs ← minuteEpoch (← item obj "range_start_utc") (at_ "quality" "range_start_utc")
  let re ← minuteEpoch (← item obj "range_end_utc") (at_ "quality" "range_end_utc")
  const obj "range_semantics" "quality" "[start,end)"
  let expected ← int obj "expected_bar_count" "quality"
  let observed ← int obj "observed_bar_count" "quality"
  let violations ← violationCounts.mapM fun field => int obj field "quality"
  let gapCount ← int obj "gap_count" "quality"
  let status ← str obj "quality_status" "quality" { oneOf := some ["PASS", "QUARANTINE", "FAIL"] }
  let reasons ← strArray obj "quarantine_reasons" "quality"
  discard (instant (← item obj "evaluated_at_utc") (at_ "quality" "evaluated_at_utc"))
  discard (strArray obj "limitations" "quality")
  ensure (¬ re ≤ rs) (.rule "quality" "range_end_utc must be after range_start_utc")
  let seconds : ℤ := secondsOf timeframe
  ensure ((re - rs) % seconds = 0) (.rule "quality" "range is not a whole multiple of the timeframe")
  ensure (expected = (re - rs) / seconds)
    (.rule "quality" "expected_bar_count must equal (range_end - range_start) / timeframe")
  let clean := (∀ n ∈ violations, n = 0) ∧ gapCount = 0 ∧ observed = expected
  if status = "PASS" then
    ensure clean (.rule "quality" "PASS requires zero violations/gaps AND observed == expected")
    ensure (reasons = []) (.rule "quality" "PASS must not carry quarantine_reasons")
  else ensure (reasons ≠ []) (.rule "quality" "requires at least one quarantine reason")

/-! ### What the checks say -/

def TimeAt (obj : Json) (field : String) (e : ℤ) : Prop :=
  ∃ v, get obj field = some v ∧ ∃ place, minuteEpoch v place = .ok e

lemma minuteEpoch_congr {v : Json} {place : String} {e : ℤ} (h : minuteEpoch v place = .ok e)
    (place' : String) : minuteEpoch v place' = .ok e := by
  cases v with
  | str s =>
    simp only [minuteEpoch] at h ⊢
    split_ifs at h ⊢
    split at h
    · rename_i heq
      split_ifs at h with hvalid
      rw [if_pos hvalid]
      exact h
    · cases h
  | _ => cases h

lemma TimeAt.unique {obj : Json} {field : String} {e e' : ℤ} (h : TimeAt obj field e)
    (h' : TimeAt obj field e') : e = e' := by
  obtain ⟨v, hv, place, he⟩ := h
  obtain ⟨v', hv', place', he'⟩ := h'
  obtain rfl := Option.some.inj (hv.symm.trans hv')
  exact Except.ok.inj ((minuteEpoch_congr he place').symm.trans he')

lemma timeAt_of_item {obj v : Json} {field place : String} {e : ℤ} (hv : item obj field = .ok v)
    (he : minuteEpoch v place = .ok e) : TimeAt obj field e :=
  ⟨v, item_eq_ok_iff.mp hv, place, he⟩

/-- A bar has the interval of the given length that begins at a time. -/
def Spans (step : ℤ) (bar : Json) (s : ℤ) : Prop :=
  TimeAt bar "event_start_utc" s ∧ TimeAt bar "event_end_utc" (s + step)

variable {finite} {step rangeStart rangeEnd : ℤ}

lemma of_checkBar {prevEnd : Option ℤ} {seen : List ℤ} {bar : Json} {place : String} {s e : ℤ}
    (h : checkBar finite step rangeStart rangeEnd prevEnd seen bar place = .ok (s, e)) :
    Spans step bar s ∧ e = s + step ∧ rangeStart ≤ s ∧ e ≤ rangeEnd ∧ ∀ p ∈ prevEnd, p ≤ s := by
  simp only [checkBar, bind_eq_ok_iff] at h
  obtain ⟨-, -, v, hv, s', hs, w, hw, e', he, _, hstep, _, hin, -, -, _, hord, -, -, h⟩ := h
  cases h
  obtain rfl := ensure_eq_ok hstep
  have hbounds := ensure_eq_ok hin
  rw [not_or, not_lt, gt_iff_lt, not_lt] at hbounds
  exact ⟨⟨timeAt_of_item hv hs, timeAt_of_item hw he⟩, rfl, hbounds.1, hbounds.2,
    fun p hp => not_lt.mp (ensure_eq_ok hord p hp)⟩

lemma exists_starts (hstep : 0 ≤ step) {place : String} {i : ℕ} {prevEnd : Option ℤ} {seen : List ℤ}
    {bars : List Json}
    (h : checkBars finite step rangeStart rangeEnd place i prevEnd seen bars = .ok ()) :
    ∃ starts, List.Forall₂ (Spans step) bars starts ∧
      (∀ s ∈ starts, rangeStart ≤ s ∧ s + step ≤ rangeEnd) ∧ (∀ p ∈ prevEnd, ∀ s ∈ starts, p ≤ s) ∧
      starts.Pairwise fun s t => s + step ≤ t := by
  induction bars generalizing i prevEnd seen with
  | nil => exact ⟨[], .nil, by simp, by simp, .nil⟩
  | cons bar bars ih =>
    rw [checkBars] at h
    obtain ⟨⟨s, e⟩, hbar, hrest⟩ := exists_of_bind_eq_ok h
    obtain ⟨hspans, rfl, hlo, hhi, hprev⟩ := of_checkBar hbar
    obtain ⟨starts, hall, hin, hafter, hord⟩ := ih hrest
    refine ⟨s :: starts, .cons hspans hall, List.forall_mem_cons.mpr ⟨⟨hlo, hhi⟩, hin⟩,
      fun p hp => List.forall_mem_cons.mpr ⟨hprev p hp, fun t ht => ?_⟩,
      List.pairwise_cons.mpr ⟨hafter _ rfl, hord⟩⟩
    have hnext := hafter _ rfl t ht
    have hp := hprev p hp
    omega

lemma of_passed {report : Json} {timeframe : String} {lo hi n : ℤ}
    (h : validateQualityReport report = .ok ()) (hstatus : get report "quality_status" = some (.str "PASS"))
    (htf : get report "timeframe" = some (.str timeframe)) (hlo : TimeAt report "range_start_utc" lo)
    (hhi : TimeAt report "range_end_utc" hi) (hn : get report "observed_bar_count" = some (.int n)) :
    lo ≤ hi ∧ n * secondsOf timeframe = hi - lo := by
  simp only [validateQualityReport, bind_eq_ok_iff] at h
  obtain ⟨-, -, -, -, -, -, -, -, -, -, tf, htf', -, -, -, -, -, -, v, hv, rs, hrs, w, hw, re, hre,
    -, -, expected, -, observed, hobserved, violations, -, gaps, -, status, hstatus', reasons, -,
    -, -, -, -, -, -, _, hlt, _, hmod, _, hexpected, h⟩ := h
  obtain rfl := Json.str.inj (Option.some.inj ((str_eq_ok htf').symm.trans htf))
  obtain rfl := Json.str.inj (Option.some.inj ((str_eq_ok hstatus').symm.trans hstatus))
  obtain rfl := Json.int.inj (Option.some.inj ((int_eq_ok hobserved).symm.trans hn))
  obtain rfl := (timeAt_of_item hv hrs).unique hlo
  obtain rfl := (timeAt_of_item hw hre).unique hhi
  rw [if_pos rfl] at h
  obtain ⟨_, hclean, -⟩ := bind_eq_ok_iff.mp h
  obtain ⟨-, -, rfl⟩ := ensure_eq_ok hclean
  refine ⟨(not_le.mp (ensure_eq_ok hlt)).le, ?_⟩
  rw [ensure_eq_ok hexpected, Int.ediv_mul_cancel (Int.dvd_of_emod_eq_zero (ensure_eq_ok hmod))]

/-- The bars of an accepted sequence do not overlap, are in the range and are no more than it has room
for; a sequence that fills the range, as one that a passing report has counted does, is complete. -/
theorem complete_of_full {bars : List Json} {timeframe place : String} {n : ℕ}
    (h : validateBarSequence finite bars timeframe rangeStart rangeEnd place = .ok n) :
    n = bars.length ∧ ∃ starts, List.Forall₂ (Spans (secondsOf timeframe)) bars starts ∧
      (∀ s ∈ starts, rangeStart ≤ s ∧ s + secondsOf timeframe ≤ rangeEnd) ∧
      (starts.Pairwise fun s t : ℤ => s + secondsOf timeframe ≤ t) ∧
      (rangeStart ≤ rangeEnd → n * secondsOf timeframe ≤ rangeEnd - rangeStart ∧
        (n * secondsOf timeframe = rangeEnd - rangeStart →
          starts = consecutive rangeStart (secondsOf timeframe) n)) ∧
      ∀ report, validateQualityReport report = .ok () →
        get report "quality_status" = some (.str "PASS") →
        get report "timeframe" = some (.str timeframe) →
        TimeAt report "range_start_utc" rangeStart → TimeAt report "range_end_utc" rangeEnd →
        get report "observed_bar_count" = some (.int n) →
          n * secondsOf timeframe = rangeEnd - rangeStart ∧
            starts = consecutive rangeStart (secondsOf timeframe) n := by
  unfold validateBarSequence at h
  split_ifs at h with htf
  obtain ⟨_, hbars, h⟩ := exists_of_bind_eq_ok h
  cases h
  obtain ⟨starts, hall, hin, -, hord⟩ :=
    exists_starts (Int.natCast_nonneg (secondsOf timeframe)) hbars
  have htile : rangeStart ≤ rangeEnd → _ := fun hrange => tile hrange hin hord
  rw [← hall.length_eq] at htile
  refine ⟨rfl, starts, hall, hin, hord, htile, ?_⟩
  intro report hreport hstatus htf hlo hhi hn
  obtain ⟨hrange, hfull⟩ := of_passed hreport hstatus htf hlo hhi hn
  exact ⟨hfull, (htile hrange).2 hfull⟩

def flatBar (start stop : String) : Json :=
  .obj [("event_start_utc", .str start), ("event_end_utc", .str stop), ("open", .int 5),
    ("high", .int 5), ("low", .int 5), ("close", .int 5), ("volume", .null)]

theorem complete_of_full_twoMinutes : ∃ starts, List.Forall₂ (Spans 60)
    [flatBar "2026-01-12T00:00:00Z" "2026-01-12T00:01:00Z",
      flatBar "2026-01-12T00:01:00Z" "2026-01-12T00:02:00Z"] starts ∧
    starts = consecutive 1768176000 60 2 := by
  have hvalid : validateBarSequence (fun _ => none)
      [flatBar "2026-01-12T00:00:00Z" "2026-01-12T00:01:00Z",
        flatBar "2026-01-12T00:01:00Z" "2026-01-12T00:02:00Z"] "M1" 1768176000 1768176120 "" = .ok 2 := by
    decide +kernel
  obtain ⟨-, starts, hall, -, -, hfull, -⟩ := complete_of_full hvalid
  exact ⟨starts, hall, (hfull (by decide)).2 (by decide)⟩

end BarSequence
end MarketData
end GuvFX
