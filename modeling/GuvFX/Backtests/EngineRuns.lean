/-
# Runs of the engines over bars with a common beginning

The main result of the backtests: what an engine reports about a common beginning of two lists of bars
is the same, if both lists are long enough or both too short, no period is negative, and as far as the
tags with the regimes are left aside.  The tags are the same as well where both lists can be classified.

Each of the conditions is needed; the runs at the end of the file show it.
-/
import GuvFX.Backtests.NoLookAhead
import GuvFX.Lib.Decimal

namespace GuvFX
namespace Backtests

open Loops

variable {F : Type} (host : Host F)

/-! ### Engines -/

inductive Engine (F : Type)
  | crossover (params : StrategyParams F)
  | template (name : String) (o : TemplateOptions F)

namespace Engine

/-- A backtest. -/
def run (e : Engine F) (symbol : String) (balance : F) (bars : List (Bar F)) :
    Option (BacktestResult F) :=
  match e with
  | crossover params => runBacktest host bars params symbol balance
  | template name o => runTemplateBacktest host bars name o symbol balance

def needs : Engine F → Option ℤ
  | crossover params => some (max params.fastEma params.slowEma + 5)
  | template name o => do
    let t ← getTemplate host name
    let m ← t.minBars (o.params ++ t.defaultParams)
    some (m + 5)

def TooShort (e : Engine F) (bars : List (Bar F)) : Prop :=
  ∀ m ∈ e.needs host, (bars.length : ℤ) < m

/-- No period of an indicator that would read from the end is negative. -/
def Forward : Engine F → Prop
  | crossover _ => True
  | template name o => ∀ t ∈ getTemplate host name,
      ReadsForward host name (o.params ++ t.defaultParams)

end Engine

def untag (t : BacktestTrade F) : BacktestTrade F := { t with regime := none }

/-- What two results say about the bars before `n`: the trades that are left before it, apart from the
tags, and the balances that are recorded before it are the same; so are the tags, where the regimes of
both lists are classified. -/
structure SameResults (n : ℕ) (xs ys : List (Bar F)) (r r' : BacktestResult F) : Prop where
  trades : (tradesBefore n r.trades).map untag = (tradesBefore n r'.trades).map untag
  equity : equityBefore n r.equityCurve = equityBefore n r'.equityCurve
  tags : (engineRegimes host xs).isSome → (engineRegimes host ys).isSome →
    (xs.length < 25 ↔ ys.length < 25) → tradesBefore n r.trades = tradesBefore n r'.trades

variable {host}

lemma SameResults.refl (n : ℕ) (xs : List (Bar F)) (r : BacktestResult F) :
    SameResults host n xs xs r r := ⟨rfl, rfl, fun _ _ _ => rfl⟩

/-! ### Tags -/

@[simp] lemma untag_tagTrade (labels : List Regime) (t : BacktestTrade F) :
    untag (tagTrade labels t) = untag t := by
  unfold tagTrade
  split_ifs <;> rfl

lemma tradesBefore_tagTrades (n : ℕ) (labels : List Regime) (ts : List (BacktestTrade F)) :
    tradesBefore n (ts.map (tagTrade labels)) = (tradesBefore n ts).map (tagTrade labels) := by
  unfold tradesBefore
  rw [List.filter_map]
  congr 1
  apply List.filter_congr
  intro t _
  simp only [Function.comp_apply, tagTrade]
  split_ifs <;> rfl

lemma untag_tagTrades (n : ℕ) (labels : Option (List Regime)) (ts : List (BacktestTrade F)) :
    (tradesBefore n (tagTrades labels ts)).map untag = (tradesBefore n ts).map untag := by
  cases labels with
  | none => rfl
  | some ls =>
    simp only [tagTrades, tradesBefore_tagTrades, List.map_map]
    apply List.map_congr_left
    intro t _
    exact untag_tagTrade ls t

/-- The tags of trades that are left before `n` depend on the labels before `n` alone. -/
lemma tagTrades_congr {n : ℕ} {ls ls' : List Regime} (hl : Agree n ls ls')
    {ts : List (BacktestTrade F)} (hts : ∀ t ∈ ts, 0 ≤ t.entryBar ∧ t.entryBar ≤ t.exitBar) :
    (tradesBefore n ts).map (tagTrade ls) = (tradesBefore n ts).map (tagTrade ls') := by
  apply List.map_congr_left
  intro t ht
  obtain ⟨hmem, hcond⟩ := List.mem_filter.mp ht
  obtain ⟨h0, hle⟩ := hts t hmem
  have hexit : t.exitBar < n := (of_decide_eq_true hcond).1
  unfold tagTrade
  rw [hl.getElem? (by omega)]

/-! ### The result -/

lemma runBacktest_same {params : StrategyParams F} {symbol : String} {balance : F} {n : ℕ}
    {xs ys : List (Bar F)} (hxy : Agree n xs ys) (hx : n ≤ xs.length) (hy : n ≤ ys.length)
    (hlen : (Engine.crossover params).TooShort host xs ↔ (Engine.crossover params).TooShort host ys)
    {r r' : BacktestResult F} (h : runBacktest host xs params symbol balance = some r)
    (h' : runBacktest host ys params symbol balance = some r') :
    tradesBefore n r.trades = tradesBefore n r'.trades ∧
      equityBefore n r.equityCurve = equityBefore n r'.equityCurve := by
  have hshort : ∀ bars : List (Bar F), (Engine.crossover params).TooShort host bars ↔
      bars.length < max params.fastEma params.slowEma + 5 := by
    intro bars
    simp [Engine.TooShort, Engine.needs]
  rw [hshort, hshort] at hlen
  unfold runBacktest at h h'
  by_cases hs : xs.length < max params.fastEma params.slowEma + 5
  · rw [if_pos hs] at h
    rw [if_pos (hlen.mp hs)] at h'
    cases h
    cases h'
    exact ⟨rfl, rfl⟩
  · rw [if_neg hs] at h
    rw [if_neg fun hs' => hs (hlen.mpr hs')] at h'
    simp only [Option.bind_eq_bind, Option.bind_eq_some_iff] at h h'
    obtain ⟨fast, hf, slow, hsl, st, hst, h⟩ := h
    obtain ⟨fast', hf', slow', hsl', st', hst', h'⟩ := h'
    cases h
    cases h'
    have hc := hxy.map fun b : Bar F => b.close
    -- both periods are positive, or there is no bar and the first index is not there
    have hstart : 1 ≤ max params.fastEma params.slowEma + 1 := by
      by_contra hneg
      rcases eq_or_ne xs [] with rfl | hne
      · rw [simulate_nil (by simp at hs; omega)] at hst
        cases hst
      · unfold computeEma at hf
        rw [ema_eq_none (by simpa using hne) (by omega)] at hf
        cases hf
    exact simulate_agree hxy hx hy (by omega)
      (crossStrategy_alike (ema_agree hc (by simpa using hx) (by simpa using hy) hf hf')
        (ema_agree hc (by simpa using hx) (by simpa using hy) hsl hsl') params _ hstart) hst hst'

lemma runTemplate_spec {name : String} {o : TemplateOptions F} {symbol : String} {balance : F}
    {bars : List (Bar F)} {r : BacktestResult F}
    (h : runTemplateBacktest host bars name o symbol balance = some r) :
    ∃ t m, getTemplate host name = some t ∧ t.minBars (o.params ++ t.defaultParams) = some m ∧
      ((bars.length < m + 5 ∧ r.trades = [] ∧ r.equityCurve = []) ∨
        (¬ bars.length < m + 5 ∧ ∃ ind st, t.prepare bars (o.params ++ t.defaultParams) = some ind ∧
          simulate host (o.costs host symbol)
            (templateStrategy t (o.params ++ t.defaultParams) bars ind) bars m balance = some st ∧
          r.trades = tagTrades (engineRegimes host bars) st.trades ∧
          r.equityCurve = st.equityCurve)) := by
  simp only [runTemplateBacktest, Option.bind_eq_bind, Option.bind_eq_some_iff] at h
  obtain ⟨t, ht, m, hm, h⟩ := h
  refine ⟨t, m, ht, hm, ?_⟩
  split_ifs at h with hs
  · cases h
    exact Or.inl ⟨hs, rfl, rfl⟩
  · simp only [Option.bind_eq_some_iff] at h
    obtain ⟨ind, hind, st, hst, h⟩ := h
    cases h
    exact Or.inr ⟨hs, ind, st, hind, hst, rfl, rfl⟩

lemma runTemplate_same {name : String} {o : TemplateOptions F} {symbol : String} {balance : F} {n : ℕ}
    {xs ys : List (Bar F)} (hxy : Agree n xs ys) (hx : n ≤ xs.length) (hy : n ≤ ys.length)
    (hlen : (Engine.template name o).TooShort host xs ↔ (Engine.template name o).TooShort host ys)
    (hforward : (Engine.template name o).Forward host)
    {r r' : BacktestResult F} (h : runTemplateBacktest host xs name o symbol balance = some r)
    (h' : runTemplateBacktest host ys name o symbol balance = some r') :
    SameResults host n xs ys r r' := by
  obtain ⟨t, m, ht, hm, h⟩ := runTemplate_spec h
  obtain ⟨t', m', ht', hm', h'⟩ := runTemplate_spec h'
  rw [ht] at ht'
  cases ht'
  rw [hm] at hm'
  cases hm'
  have hshort : ∀ bars : List (Bar F), (Engine.template name o).TooShort host bars ↔
      bars.length < m + 5 := by
    intro bars
    simp [Engine.TooShort, Engine.needs, ht, hm]
  rw [hshort, hshort] at hlen
  rcases h with ⟨hs, htr, heq⟩ | ⟨hs, ind, st, hind, hst, htr, heq⟩
  · rcases h' with ⟨-, htr', heq'⟩ | ⟨hs', -⟩
    · exact ⟨by rw [htr, htr'], by rw [heq, heq'], fun _ _ _ => by rw [htr, htr']⟩
    · exact absurd (hlen.mp hs) hs'
  · rcases h' with ⟨hs', -⟩ | ⟨-, ind', st', hind', hst', htr', heq'⟩
    · exact absurd (hlen.mpr hs') hs
    have hcausal := causal_of_getTemplate ht (hforward t ht)
    have h0 : 0 ≤ m := by
      by_contra hneg
      rcases eq_or_ne xs [] with rfl | hne
      · rw [simulate_nil (by omega)] at hst
        cases hst
      · exact hneg (hcausal.start hm hind hne)
    obtain ⟨htrades, hequity⟩ := simulate_agree hxy hx hy h0
      (templateStrategy_alike hcausal hxy (hcausal.prepare hxy hx hy hind hind') h0) hst hst'
    refine ⟨?_, by rw [heq, heq', hequity], ?_⟩
    · rw [htr, htr', untag_tagTrades, untag_tagTrades, htrades]
    · intro hsome hsome' hl
      obtain ⟨ls, hls⟩ := Option.isSome_iff_exists.mp hsome
      obtain ⟨ls', hls'⟩ := Option.isSome_iff_exists.mp hsome'
      have hlabels : Agree n ls ls' :=
        classifyRegimes_agree hxy hx hy (by omega) (by omega) hls hls'
      rw [htr, htr', hls, hls']
      simp only [tagTrades, tradesBefore_tagTrades, ← htrades]
      exact tagTrades_congr hlabels (simulate_entered h0 (by omega) hst)

/-- Backtests do not look ahead: over bars with a common beginning, both long enough or both too short,
the results say the same about it. -/
theorem sameResults {e : Engine F} (hforward : e.Forward host) (symbol : String) (balance : F) {n : ℕ}
    {xs ys : List (Bar F)} (hxy : Agree n xs ys)
    (hlen : e.TooShort host xs ↔ e.TooShort host ys) {r r' : BacktestResult F}
    (h : e.run host symbol balance xs = some r) (h' : e.run host symbol balance ys = some r') :
    SameResults host n xs ys r r' := by
  by_cases hx : n ≤ xs.length
  · by_cases hy : n ≤ ys.length
    · cases e with
      | crossover params =>
        obtain ⟨htrades, hequity⟩ := runBacktest_same hxy hx hy hlen h h'
        exact ⟨by rw [htrades], hequity, fun _ _ _ => htrades⟩
      | template name o => exact runTemplate_same hxy hx hy hlen hforward h h'
    · have heq := hxy.symm.eq_of_length_lt (by omega)
      subst heq
      rw [h] at h'
      cases h'
      exact SameResults.refl n ys r
  · have heq := hxy.eq_of_length_lt (by omega)
    subst heq
    rw [h] at h'
    cases h'
    exact SameResults.refl n xs r

/-! ### Runs -/

def ratNumbers : Numbers ℚ where
  ofInt n := n
  asInt q := if q.den = 1 then some q.num else none
  lit q := q
  inf := 10 ^ 400
  neg q := -q
  abs q := |q|
  add x y := x + y
  sub x y := x - y
  mul x y := x * y
  div x y := if y = 0 then none else some (x / y)
  square x := some (x * x)
  sum xs := xs.sum
  lt x y := x < y
  le x y := x ≤ y
  eq x y := x = y
  round q k := Decimal.quantizeEven k q
  -- the values at the numbers that the runs below ask for
  log q := if q ≤ 0 then none else some (q - 1)
  sqrt q := if q = 20 then some (447213595499958 / 10 ^ 14) else none

def twoDigits (n : ℤ) : String := if n < 10 then "0" ++ toString n else toString n

/-- The times of the first day. -/
def ratHost : Host ℚ where
  toNumbers := ratNumbers
  utc t :=
    if 0 ≤ t ∧ t < 86400 then
      some ("1970-01-01T" ++ twoDigits (t / 3600) ++ ":" ++ twoDigits (t % 3600 / 60) ++ ":"
        ++ twoDigits (t % 60) ++ "Z")
    else none

/-- A bar of a minute that closes at its low, one cent below its high. -/
def barAt (i : ℕ) (close : ℚ) : Bar ℚ := ⟨60 * i, close, close + 1 / 100, close, close⟩

def flatBars (k : ℕ) : List (Bar ℚ) := (List.range k).map fun i => barAt i 1

def barsWithLast (k : ℕ) (close : ℚ) : List (Bar ℚ) := flatBars k ++ [barAt k close]

/-- Averages over one and two bars. -/
def smallCross : Engine ℚ := .crossover ⟨1, 2, 30, 60, 1 / 100, 3 / 2, 10⟩

/-- The template of the relative strength. -/
def rsiEngine (params : Params ℚ) : Engine ℚ :=
  .template "rsi_mean_reversion" ⟨params, 1 / 100, 3 / 2, 10, none⟩

def reported (e : Engine ℚ) (bars : List (Bar ℚ)) : BacktestResult ℚ :=
  (e.run ratHost "EURUSD" 10000 bars).getD (refusedResult "" ([] : List (Bar ℚ)) 0 "")

lemma run_eq_reported {e : Engine ℚ} {bars : List (Bar ℚ)}
    (h : (e.run ratHost "EURUSD" 10000 bars).isSome = true) :
    e.run ratHost "EURUSD" 10000 bars = some (reported e bars) := by
  unfold reported
  obtain ⟨r, hr⟩ := Option.isSome_iff_exists.mp h
  rw [hr]
  rfl

lemma not_tooShort {e : Engine ℚ} {bars : List (Bar ℚ)} {m : ℤ} (hm : e.needs ratHost = some m)
    (hlen : m ≤ bars.length) : ¬ e.TooShort ratHost bars := by
  intro h
  have := h m hm
  omega

/-- The periods of the template by default are not negative. -/
lemma rsiEngine_forward : (rsiEngine []).Forward ratHost := by
  intro t ht
  have htemplate : getTemplate ratHost "rsi_mean_reversion" = some (rsiMeanReversion ratHost) := rfl
  rw [htemplate] at ht
  cases ht
  have hperiod : period ratHost ([] ++ (rsiMeanReversion ratHost).defaultParams) "rsi_period" 14 =
      some 14 := by decide +kernel
  refine ⟨fun _ p hp => ?_, fun hname => ?_⟩
  · rw [hperiod] at hp
    cases hp
    decide
  · revert hname
    decide

theorem sameResults_small :
    SameResults ratHost 7 (barsWithLast 7 1) (barsWithLast 7 2)
      (reported smallCross (barsWithLast 7 1)) (reported smallCross (barsWithLast 7 2)) := by
  refine sameResults (e := smallCross) trivial "EURUSD" 10000 (by rfl) ?_
    (run_eq_reported (by decide +kernel)) (run_eq_reported (by decide +kernel))
  have h : ∀ bars : List (Bar ℚ), 7 ≤ bars.length → ¬ smallCross.TooShort ratHost bars :=
    fun bars hlen => not_tooShort (m := 7) rfl (by omega)
  exact ⟨fun hs => absurd hs (h _ (by decide)), fun hs => absurd hs (h _ (by decide))⟩

/-- What is reported about a common beginning differs when one list is too short; when the last bar of
one list, at the price zero, keeps all trades of it from being tagged; and, even without the tags, when
the period is negative. -/
theorem sameResults_broken :
    (¬ ∀ (e : Engine ℚ) (n : ℕ) (xs ys : List (Bar ℚ)) (r r' : BacktestResult ℚ),
      e.Forward ratHost → Agree n xs ys → e.run ratHost "EURUSD" 10000 xs = some r →
      e.run ratHost "EURUSD" 10000 ys = some r' →
      equityBefore n r.equityCurve = equityBefore n r'.equityCurve) ∧
    (¬ ∀ (e : Engine ℚ) (n : ℕ) (xs ys : List (Bar ℚ)) (r r' : BacktestResult ℚ),
      e.Forward ratHost → ¬ e.TooShort ratHost xs → ¬ e.TooShort ratHost ys → Agree n xs ys →
      e.run ratHost "EURUSD" 10000 xs = some r → e.run ratHost "EURUSD" 10000 ys = some r' →
      tradesBefore n r.trades = tradesBefore n r'.trades) ∧
    (¬ ∀ (e : Engine ℚ) (n : ℕ) (xs ys : List (Bar ℚ)) (r r' : BacktestResult ℚ),
      ¬ e.TooShort ratHost xs → ¬ e.TooShort ratHost ys → Agree n xs ys →
      e.run ratHost "EURUSD" 10000 xs = some r → e.run ratHost "EURUSD" 10000 ys = some r' →
      (tradesBefore n r.trades).map untag = (tradesBefore n r'.trades).map untag) := by
  refine ⟨?_, ?_, ?_⟩
  · intro h
    have heq := h smallCross 6 (flatBars 6) (flatBars 7) _ _ trivial (by rfl)
      (run_eq_reported (by decide +kernel)) (run_eq_reported (by decide +kernel))
    revert heq
    decide +kernel
  · intro h
    have heq := h (rsiEngine []) 25 (flatBars 26) (barsWithLast 25 0) _ _ rsiEngine_forward
      (not_tooShort (m := 24) (by decide +kernel) (by decide))
      (not_tooShort (m := 24) (by decide +kernel) (by decide)) (by rfl)
      (run_eq_reported (by decide +kernel)) (run_eq_reported (by decide +kernel))
    revert heq
    decide +kernel
  · intro h
    have heq := h (rsiEngine [("rsi_period", -1)]) 9 (barsWithLast 9 2) (barsWithLast 9 (1 / 2)) _ _
      (not_tooShort (m := 9) (by decide +kernel) (by decide))
      (not_tooShort (m := 9) (by decide +kernel) (by decide)) (by rfl)
      (run_eq_reported (by decide +kernel)) (run_eq_reported (by decide +kernel))
    revert heq
    decide +kernel

end Backtests
end GuvFX
