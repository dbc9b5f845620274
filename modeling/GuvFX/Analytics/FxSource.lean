/-
# Selection of the exchange rate

What each source published for a day is kept as immutable revisions.  A conversion uses the day
before today: the latest accepted revision on or before it, carried forward for at most a week, of
the first source in the governed priority that has one.  The dashboard reads the rate through a
source object that remembers its selections; the health report of the ingestion walks the same
priority on its own, and the two agree.
-/
import Mathlib.Data.Prod.Lex
import Mathlib.Data.List.SplitOn
import Mathlib.Data.Rat.Defs
import GuvFX.Lib.Latest
import GuvFX.Lib.Rows
import GuvFX.Lib.Text

namespace GuvFX
namespace FxSource

/-! ### The ledger -/

inductive AcceptanceState
  | accepted
  | rejected
  deriving DecidableEq

/-- One revision of what a source published for a day; days are counted from the first one, 1. -/
structure DailyFxObservation where
  baseCurrency : String
  quoteCurrency : String
  effectiveDate : ℕ
  rate : ℚ
  source : String
  sourceSeries : String
  revisionNumber : ℕ
  acceptanceState : AcceptanceState
  effectiveDate_pos : 0 < effectiveDate

def DailyFxObservation.key (o : DailyFxObservation) : String × String × String × ℕ × ℕ :=
  (o.source, o.baseCurrency, o.quoteCurrency, o.effectiveDate, o.revisionNumber)

/-- The ledger has one row for each revision number of a source, a pair and a day. -/
abbrev Ledger := Rows DailyFxObservation DailyFxObservation.key

def accepted (db : Ledger) (base quote source : String) : List DailyFxObservation :=
  db.rows.filter fun o => o.baseCurrency = base ∧ o.quoteCurrency = quote ∧ o.source = source ∧
    o.acceptanceState = .accepted

def newness (o : DailyFxObservation) : ℕ ×ₗ ℕ := toLex (o.effectiveDate, o.revisionNumber)

/-- The first row in the order of falling dates, and of falling revisions within a date. -/
def newest (rows : List DailyFxObservation) : Option DailyFxObservation :=
  Latest.latest newness none rows

/-! ### Selection -/

def maxStalenessDays : ℕ := 7

def seriesForSource (source fallback : String) : String :=
  if source = "FED_H10" then "DEXUSUK" else if source = "BOE" then "XUDLUSS" else fallback

def normaliseCurrency (cur : String) : String :=
  let c := Text.upper (Text.strip cur)
  if c = "" then "USD" else c

/-- There is no day before the first one. -/
inductive DateError
  | overflow

def previousDay (day : ℕ) : Except DateError ℕ := if day ≤ 1 then .error .overflow else .ok (day - 1)

structure SelectedRate where
  base : String
  quote : String
  rate : ℚ
  effectiveDate : ℕ
  source : String
  sourceSeries : String
  revisionNumber : ℕ
  currentDate : ℕ
  targetDate : ℕ
  ageDays : ℕ

def selectedRate (base quote : String) (currentDate targetDate : ℕ) (row : DailyFxObservation) :
    SelectedRate where
  base := base
  quote := quote
  rate := row.rate
  effectiveDate := row.effectiveDate
  source := row.source
  sourceSeries := row.sourceSeries
  revisionNumber := row.revisionNumber
  currentDate := currentDate
  targetDate := targetDate
  ageDays := targetDate - row.effectiveDate

def selectObservation (db : Ledger) (base quote : String) (currentDate limit : ℕ) (source : String) :
    Except DateError (Option SelectedRate) := do
  let base := normaliseCurrency base
  let quote := normaliseCurrency quote
  let targetDate ← previousDay currentDate
  match newest ((accepted db base quote source).filter fun o => o.effectiveDate ≤ targetDate) with
  | none => return none
  | some row =>
    if limit < targetDate - row.effectiveDate then return none
    return some (selectedRate base quote currentDate targetDate row)

def selectPrioritised (db : Ledger) (base quote : String) (currentDate limit : ℕ) :
    List String → Except DateError (Option SelectedRate)
  | [] => .ok none
  | src :: priority => do
    match ← selectObservation db base quote currentDate limit src with
    | some sel => return some sel
    | none => selectPrioritised db base quote currentDate limit priority

/-- The priority of the configuration: the known sources it names, each once, or one alone. -/
def fxSourcePriority (raw : String) : List String :=
  let toks := (raw.toList.splitOn ',').map fun tok => Text.upper (Text.strip (String.ofList tok))
  let order := toks.foldl (fun order s =>
    if s ∈ ["FED_H10", "BOE"] ∧ s ∉ order then order ++ [s] else order) []
  if order = [] then ["FED_H10"] else order

def effectivePriority (raw : String) (priority : List String) : List String :=
  if priority = [] then fxSourcePriority raw else priority

/-! ### The source object of the dashboard -/

structure FxRate where
  base : String
  quote : String
  rate : ℚ
  asOf : Option ℕ
  source : String

structure StoredDbFxRateSource where
  currentDate : ℕ
  priority : List String
  cache : List ((String × String) × Option SelectedRate)

namespace StoredDbFxRateSource

def init (raw : String) (today : ℕ) (priority : List String) : StoredDbFxRateSource :=
  ⟨today, effectivePriority raw priority, []⟩

def look (db : Ledger) (s : StoredDbFxRateSource) (key : String × String) : Option SelectedRate :=
  if key = ("GBP", "USD") then
    (selectPrioritised db key.1 key.2 s.currentDate maxStalenessDays s.priority).toOption.join
  else none

def select (db : Ledger) (s : StoredDbFxRateSource) (base quote : String) :
    Option SelectedRate × StoredDbFxRateSource :=
  let key := (normaliseCurrency base, normaliseCurrency quote)
  match s.cache.lookup key with
  | some sel => (sel, s)
  | none => (s.look db key, { s with cache := (key, s.look db key) :: s.cache })

def getRate (db : Ledger) (s : StoredDbFxRateSource) (base quote : String) :
    Option FxRate × StoredDbFxRateSource :=
  let b := normaliseCurrency base
  let q := normaliseCurrency quote
  if b = q then (some ⟨b, q, 1, none, "identity"⟩, s)
  else
    let (sel, s) := s.select db base quote
    (sel.map fun sel => ⟨b, q, sel.rate, some sel.effectiveDate,
      sel.source ++ ":" ++ seriesForSource sel.source sel.sourceSeries ++ " rev" ++
        toString sel.revisionNumber⟩, s)

def after (db : Ledger) (s : StoredDbFxRateSource) (requests : List (String × String)) :
    StoredDbFxRateSource :=
  requests.foldl (fun s pair => (s.getRate db pair.1 pair.2).2) s

end StoredDbFxRateSource

/-! ### The health report -/

inductive Status
  | empty
  | stale
  | healthy

structure Health where
  status : Status
  source : String
  series : String
  sourcePriority : List String
  acceptedCount : ℕ
  latestEffectiveDate : Option ℕ
  ageDays : Option ℤ
  convertible : Bool
  currentDate : ℕ

structure Picks where
  convertible : Option (String × DailyFxObservation)
  freshest : Option (String × DailyFxObservation)

/-- One source of the order. -/
def healthStep (db : Ledger) (currentDate : ℕ) (picks : Picks) (src : String) :
    Except DateError Picks :=
  match newest (accepted db "GBP" "USD" src) with
  | none => .ok picks
  | some latest => do
    let freshest :=
      if picks.freshest.all fun e => e.2.effectiveDate < latest.effectiveDate then some (src, latest)
      else picks.freshest
    if picks.convertible.isSome then return { picks with freshest }
    let sel ← selectObservation db "GBP" "USD" currentDate maxStalenessDays src
    return ⟨if sel.isSome then some (src, latest) else none, freshest⟩

def fxIngestionHealth (db : Ledger) (raw : String) (source : Option String) (priority : List String)
    (currentDate : ℕ) : Except DateError Health := do
  let order := match source.filter (· ≠ "") with
    | some source => [source]
    | none => effectivePriority raw priority
  let picks ← order.foldlM (healthStep db currentDate) ⟨none, none⟩
  match picks.convertible.or picks.freshest with
  | none =>
    let picked := order.headD ""
    return ⟨.empty, picked, seriesForSource picked "DEXUSUK", order, 0, none, none, false, currentDate⟩
  | some (pickedSrc, latest) =>
    let targetDate ← previousDay currentDate
    return {
      status := if picks.convertible.isSome then .healthy else .stale
      source := pickedSrc
      series := seriesForSource pickedSrc "DEXUSUK"
      sourcePriority := order
      acceptedCount := (accepted db "GBP" "USD" pickedSrc).length
      latestEffectiveDate := some latest.effectiveDate
      ageDays := some ((targetDate : ℤ) - latest.effectiveDate)
      convertible := picks.convertible.isSome
      currentDate := currentDate }

/-! ### What is selected -/

structure Past (base quote source : String) (today : ℕ) (o : DailyFxObservation) : Prop where
  base : o.baseCurrency = base
  quote : o.quoteCurrency = quote
  source : o.source = source
  accepted : o.acceptanceState = .accepted
  past : o.effectiveDate < today

/-- It is also within the limit of the carrying forward, which is counted from yesterday. -/
structure Usable (base quote source : String) (today limit : ℕ) (o : DailyFxObservation) : Prop
    extends Past base quote source today o where
  fresh : today - 1 - o.effectiveDate ≤ limit

/-- The latest usable observation of a source: of the latest date, and there the latest revision. -/
structure Best (db : Ledger) (base quote source : String) (today limit : ℕ)
    (o : DailyFxObservation) : Prop where
  mem : o ∈ db.rows
  usable : Usable base quote source today limit o
  date : ∀ o' ∈ db.rows, Usable base quote source today limit o' → o'.effectiveDate ≤ o.effectiveDate
  revision : ∀ o' ∈ db.rows, Usable base quote source today limit o' →
    o'.effectiveDate = o.effectiveDate → o'.revisionNumber ≤ o.revisionNumber

variable {db : Ledger} {base quote source raw : String} {today limit : ℕ} {o : DailyFxObservation}
  {priority : List String} {sel : SelectedRate}

lemma newness_le {o' : DailyFxObservation} : newness o' ≤ newness o ↔
    o'.effectiveDate ≤ o.effectiveDate ∧
      (o'.effectiveDate = o.effectiveDate → o'.revisionNumber ≤ o.revisionNumber) := by
  rw [newness, newness, Prod.Lex.toLex_le_toLex]
  dsimp only
  omega

/-- The rows that a selection chooses from. -/
def candidates (db : Ledger) (base quote source : String) (today : ℕ) : List DailyFxObservation :=
  (accepted db base quote source).filter fun o => o.effectiveDate ≤ today - 1

lemma mem_candidates (htoday : 1 < today) : o ∈ candidates db base quote source today ↔
    o ∈ db.rows ∧ Past base quote source today o := by
  have hdate : o.effectiveDate ≤ today - 1 ↔ o.effectiveDate < today := by omega
  simp only [candidates, accepted, List.mem_filter, decide_eq_true_iff, hdate]
  exact ⟨fun ⟨⟨hmem, hb, hq, hs, ha⟩, hd⟩ => ⟨hmem, hb, hq, hs, ha, hd⟩,
    fun ⟨hmem, hb, hq, hs, ha, hd⟩ => ⟨⟨hmem, hb, hq, hs, ha⟩, hd⟩⟩

lemma newest_candidates (htoday : 1 < today) :
    newest (candidates db base quote source today) = some o ↔
      (o ∈ db.rows ∧ Past base quote source today o) ∧
        ∀ o' ∈ db.rows, Past base quote source today o' → newness o' ≤ newness o := by
  have hspec : newest (candidates db base quote source today) = some o ↔
      Latest.IsLatest newness none (candidates db base quote source today) (some o) := by
    refine Latest.latest_eq_iff fun a ha b hb hrank => ?_
    -- two rows of one date and one revision are one row
    obtain ⟨ha, hpa⟩ := (mem_candidates htoday).mp ha
    obtain ⟨hb, hpb⟩ := (mem_candidates htoday).mp hb
    obtain ⟨hdate, hrevision⟩ := Prod.mk.inj (toLex.injective hrank)
    refine Rows.eq_of_key_eq ha hb ?_
    simp [DailyFxObservation.key, hpa.base, hpa.quote, hpa.source, hpb.base, hpb.quote, hpb.source,
      hdate, hrevision]
  rw [hspec, Latest.IsLatest, mem_candidates htoday]
  simp [Latest.stale, mem_candidates htoday]

def choice (db : Ledger) (base quote : String) (today limit : ℕ) (source : String) :
    Option SelectedRate :=
  (newest (candidates db base quote source today)).bind fun row =>
    if limit < today - 1 - row.effectiveDate then none
    else some (selectedRate base quote today (today - 1) row)

lemma selectObservation_of_day (htoday : 1 < today) :
    selectObservation db base quote today limit source =
      .ok (choice db (normaliseCurrency base) (normaliseCurrency quote) today limit source) := by
  have hday : previousDay today = .ok (today - 1) := if_neg (by omega)
  rw [selectObservation, hday, choice, candidates]
  dsimp only [bind, Except.bind, pure, Except.pure]
  split <;> rename_i hnew <;> rw [hnew]
  · rfl
  · rw [Option.bind_some]
    split <;> rfl

lemma selectObservation_first (h : today ≤ 1) :
    selectObservation db base quote today limit source = .error .overflow := by
  rw [selectObservation, previousDay, if_pos h]
  rfl

/-- **One source.**  The selection is the latest usable observation. -/
theorem choice_eq_some_iff (htoday : 1 < today) : choice db base quote today limit source = some sel ↔
    ∃ o, Best db base quote source today limit o ∧
      sel = selectedRate base quote today (today - 1) o := by
  rw [choice, Option.bind_eq_some_iff]
  refine exists_congr fun o => ?_
  rw [newest_candidates htoday, Option.ite_none_left_eq_some, not_lt, Option.some.injEq, eq_comm,
    ← and_assoc]
  refine and_congr_left fun _ => ⟨?_, fun hbest => ?_⟩
  · rintro ⟨⟨⟨hmem, hpast⟩, hmax⟩, hfresh⟩
    exact ⟨hmem, ⟨hpast, hfresh⟩, fun o' hmem' h => (newness_le.mp (hmax o' hmem' h.toPast)).1,
      fun o' hmem' h => (newness_le.mp (hmax o' hmem' h.toPast)).2⟩
  · refine ⟨⟨⟨hbest.mem, hbest.usable.toPast⟩, fun o' hmem' hpast => newness_le.mpr ?_⟩,
      hbest.usable.fresh⟩
    -- what is later than a usable observation is usable
    rcases Nat.lt_or_ge o'.effectiveDate o.effectiveDate with hlt | hge
    · exact ⟨hlt.le, fun h => absurd h hlt.ne⟩
    · have husable : Usable base quote source today limit o' :=
        ⟨hpast, (Nat.sub_le_sub_left hge _).trans hbest.usable.fresh⟩
      exact ⟨hbest.date o' hmem' husable, hbest.revision o' hmem' husable⟩

lemma choice_eq_none_iff (htoday : 1 < today) : choice db base quote today limit source = none ↔
    ∀ o ∈ db.rows, ¬ Usable base quote source today limit o := by
  rw [choice, Option.bind_eq_none_iff]
  constructor
  · intro h o hmem husable
    have ho := (mem_candidates htoday).mpr ⟨hmem, husable.toPast⟩
    have hspec := Latest.isLatest_latest newness none (candidates db base quote source today)
    rw [← newest] at hspec
    cases hnew : newest (candidates db base quote source today) with
    | none =>
      rw [hnew] at hspec
      cases hspec o ho
    | some row =>
      rw [hnew] at hspec
      have hle := (newness_le.mp (hspec.2.2 o ho)).1
      have hold : limit + row.effectiveDate + 1 < today := by simpa using h row hnew
      have hfresh := husable.fresh
      omega
  · intro h row hnew
    obtain ⟨⟨hmem, hpast⟩, -⟩ := (newest_candidates htoday).mp hnew
    exact if_pos (not_le.mp fun hfresh => h row hmem ⟨hpast, hfresh⟩)

lemma selectPrioritised_of_day (htoday : 1 < today) :
    selectPrioritised db base quote today limit priority = .ok
      (priority.findSome? (choice db (normaliseCurrency base) (normaliseCurrency quote) today limit)) := by
  induction priority with
  | nil => rfl
  | cons src priority ih =>
    rw [selectPrioritised, selectObservation_of_day htoday, List.findSome?_cons, ih]
    dsimp only [bind, Except.bind]
    split <;> rename_i h <;> rw [h]
    rfl

lemma selectPrioritised_first (h : today ≤ 1) :
    selectPrioritised db base quote today limit priority ≠ .ok (some sel) := by
  cases priority with
  | nil => nofun
  | cons src priority =>
    rw [selectPrioritised, selectObservation_first h]
    nofun

/-- The latest usable observation of the first source in the priority that has one. -/
def Picked (db : Ledger) (base quote : String) (today limit : ℕ) (priority : List String)
    (sel : SelectedRate) : Prop :=
  ∃ pre source post o, priority = pre ++ source :: post ∧
    (∀ s ∈ pre, ∀ o' ∈ db.rows, ¬ Usable base quote s today limit o') ∧
    Best db base quote source today limit o ∧ sel = selectedRate base quote today (today - 1) o

/-- **The priority.**  Failing over picks from the first source that has a usable observation. -/
theorem selectPrioritised_eq_some_iff :
    selectPrioritised db base quote today limit priority = .ok (some sel) ↔
      Picked db (normaliseCurrency base) (normaliseCurrency quote) today limit priority sel := by
  rcases Nat.lt_or_ge 1 today with htoday | htoday
  · simp only [selectPrioritised_of_day htoday, Except.ok.injEq, List.findSome?_eq_some_iff,
      choice_eq_some_iff htoday, choice_eq_none_iff htoday, Picked]
    grind
  · refine iff_of_false (selectPrioritised_first htoday) ?_
    rintro ⟨_, _, _, o, -, -, hbest, -⟩
    have hpast := hbest.usable.past
    have hpos := o.effectiveDate_pos
    omega

/-! ### The health report and the dashboard -/

/-- Has some source a rate? -/
def Convertible (db : Ledger) (today : ℕ) (order : List String) : Prop :=
  1 < today ∧ ∃ src ∈ order, (choice db "GBP" "USD" today maxStalenessDays src).isSome

variable {picks picks' : Picks} {src : String} {order : List String}

lemma healthStep_of_day (db : Ledger) (htoday : 1 < today) (picks : Picks) (src : String) :
    ∃ picks', healthStep db today picks src = .ok picks' ∧ (picks'.convertible.isSome ↔
      picks.convertible.isSome ∨ (choice db "GBP" "USD" today maxStalenessDays src).isSome) := by
  have hgbp : normaliseCurrency "GBP" = "GBP" := by decide
  have husd : normaliseCurrency "USD" = "USD" := by decide
  rw [healthStep, selectObservation_of_day htoday, hgbp, husd]
  split
  · rename_i hnone
    refine ⟨picks, rfl, ⟨.inl, fun h => h.resolve_right fun hsome => ?_⟩⟩
    -- a selected row is one of the rows of the source
    obtain ⟨sel, hsel⟩ := Option.isSome_iff_exists.mp hsome
    obtain ⟨o, hbest, -⟩ := (choice_eq_some_iff htoday).mp hsel
    have ho := List.mem_of_mem_filter ((mem_candidates htoday).mpr ⟨hbest.mem, hbest.usable.toPast⟩)
    have hspec := Latest.isLatest_latest newness none (accepted db "GBP" "USD" src)
    rw [← newest, hnone] at hspec
    cases hspec o ho
  · cases hconv : picks.convertible with
    | some e => exact ⟨_, rfl, by simp⟩
    | none =>
      refine ⟨_, rfl, ?_⟩
      cases choice db "GBP" "USD" today maxStalenessDays src <;> simp

lemma healthLoop_of_day (db : Ledger) (htoday : 1 < today) (order : List String) (picks : Picks) :
    ∃ picks', order.foldlM (healthStep db today) picks = .ok picks' ∧ (picks'.convertible.isSome ↔
      picks.convertible.isSome ∨
        ∃ src ∈ order, (choice db "GBP" "USD" today maxStalenessDays src).isSome) := by
  induction order generalizing picks with
  | nil => exact ⟨picks, rfl, by simp⟩
  | cons src order ih =>
    obtain ⟨picks₁, hstep, hpicks₁⟩ := healthStep_of_day db htoday picks src
    obtain ⟨picks', hloop, hpicks'⟩ := ih picks₁
    rw [List.foldlM_cons, hstep]
    refine ⟨picks', hloop, ?_⟩
    rw [hpicks', hpicks₁, or_assoc, List.exists_mem_cons_iff]

lemma healthLoop_first (htoday : today ≤ 1) (h : order.foldlM (healthStep db today) picks = .ok picks') :
    picks'.convertible = picks.convertible := by
  induction order generalizing picks with
  | nil =>
    cases h
    rfl
  | cons src order ih =>
    rw [List.foldlM_cons, healthStep, selectObservation_first htoday] at h
    split at h
    · exact ih h
    · cases hconv : picks.convertible <;> simp only [hconv] at h
      · cases h
      · exact ih h

lemma convertible_of_health : (∃ h, fxIngestionHealth db raw none priority today = .ok h ∧
    h.convertible = true) ↔ Convertible db today (effectivePriority raw priority) := by
  rcases Nat.lt_or_ge 1 today with htoday | htoday
  · obtain ⟨picks, hloop, hpicks⟩ :=
      healthLoop_of_day db htoday (effectivePriority raw priority) ⟨none, none⟩
    have hday : previousDay today = .ok (today - 1) := if_neg (by omega)
    rw [Convertible, and_iff_right htoday]
    simp only [Option.isSome_none, Bool.false_eq_true, false_or] at hpicks
    rw [← hpicks, fxIngestionHealth, Option.filter_none, hloop, hday]
    dsimp only [bind, Except.bind, pure, Except.pure]
    cases picks.convertible <;> cases picks.freshest <;> simp
  · refine iff_of_false (fun ⟨h, hok, hconv⟩ => ?_) fun h => absurd h.1 (not_lt.mpr htoday)
    rw [fxIngestionHealth, Option.filter_none] at hok
    cases hloop : (effectivePriority raw priority).foldlM (healthStep db today) ⟨none, none⟩ with
    | error e =>
      rw [hloop] at hok
      cases hok
    | ok picks =>
      have hnone := healthLoop_first htoday hloop
      rw [hloop, previousDay, if_pos htoday] at hok
      dsimp only [bind, Except.bind, pure, Except.pure] at hok
      split at hok <;> cases hok
      cases hconv

namespace StoredDbFxRateSource

variable {s : StoredDbFxRateSource} {key : String × String}

/-- The selections that are remembered are those that the ledger gives. -/
def Coherent (db : Ledger) (s : StoredDbFxRateSource) : Prop :=
  ∀ key sel, s.cache.lookup key = some sel → sel = s.look db key

lemma select_of_coherent (hs : s.Coherent db) (b q : String) :
    (s.select db b q).1 = s.look db (normaliseCurrency b, normaliseCurrency q) ∧
      (s.select db b q).2.Coherent db ∧ (s.select db b q).2.look db = s.look db := by
  cases hlookup : s.cache.lookup (normaliseCurrency b, normaliseCurrency q) with
  | some sel =>
    have hselect : s.select db b q = (sel, s) := by simp only [select, hlookup]
    rw [hselect]
    exact ⟨hs _ _ hlookup, hs, rfl⟩
  | none =>
    simp only [select, hlookup, true_and]
    refine ⟨fun key sel hsel => ?_, rfl⟩
    rw [List.lookup_cons] at hsel
    split at hsel
    · rename_i heq
      rw [beq_iff_eq.mp heq]
      exact (Option.some.inj hsel).symm
    · exact hs key sel hsel

lemma look_isSome : (s.look db key).isSome = true ↔
    key = ("GBP", "USD") ∧ Convertible db s.currentDate s.priority := by
  have hgbp : normaliseCurrency "GBP" = "GBP" := by decide
  have husd : normaliseCurrency "USD" = "USD" := by decide
  rw [look]
  split_ifs with hkey
  · subst hkey
    rw [and_iff_right rfl, Convertible]
    rcases Nat.lt_or_ge 1 s.currentDate with hday | hday
    · rw [selectPrioritised_of_day hday, hgbp, husd]
      simp [hday, Except.toOption]
    · refine iff_of_false ?_ fun h => absurd h.1 (not_lt.mpr hday)
      cases hselect : selectPrioritised db "GBP" "USD" s.currentDate maxStalenessDays s.priority with
      | error e => nofun
      | ok r =>
        cases r with
        | none => nofun
        | some sel => exact absurd hselect (selectPrioritised_first hday)
  · simp [hkey]

lemma after_coherent (hs : s.Coherent db) (requests : List (String × String)) :
    (s.after db requests).Coherent db ∧ (s.after db requests).look db = s.look db := by
  induction requests generalizing s with
  | nil => exact ⟨hs, rfl⟩
  | cons pair requests ih =>
    obtain ⟨-, hcoherent, hlook⟩ := select_of_coherent hs pair.1 pair.2
    have hnext : (s.getRate db pair.1 pair.2).2.Coherent db ∧
        (s.getRate db pair.1 pair.2).2.look db = s.look db := by
      simp only [getRate]
      split_ifs
      · exact ⟨hs, rfl⟩
      · exact ⟨hcoherent, hlook⟩
    rw [after, List.foldl_cons, ← after, ← hnext.2]
    exact ih hnext.1

end StoredDbFxRateSource

/-- **Selection of the rate.**  The observation that is picked is the latest usable one of the first
source in the priority that has one, at its latest accepted revision.  And whatever the source object
of the day has been asked for already, it has a rate to the dollar for a currency that is not the
dollar if and only if the currency is the pound and the report calls it convertible. -/
theorem select_and_health (db : Ledger) (base quote raw : String) (today limit : ℕ)
    (priority : List String) :
    (∀ sel, selectPrioritised db base quote today limit priority = .ok (some sel) ↔
      Picked db (normaliseCurrency base) (normaliseCurrency quote) today limit priority sel) ∧
    ∀ requests currency,
      ((((StoredDbFxRateSource.init raw today priority).after db requests).getRate db currency
          "USD").1.isSome = true ↔ normaliseCurrency currency = "USD" ∨
        normaliseCurrency currency = "GBP" ∧ ∃ h, fxIngestionHealth db raw none priority today = .ok h ∧
          h.convertible = true) := by
  refine ⟨fun sel => selectPrioritised_eq_some_iff, fun requests currency => ?_⟩
  have husd : normaliseCurrency "USD" = "USD" := by decide
  have hinit : (StoredDbFxRateSource.init raw today priority).Coherent db := fun _ _ h => by cases h
  obtain ⟨hcoherent, hlook⟩ := StoredDbFxRateSource.after_coherent hinit requests
  rw [StoredDbFxRateSource.getRate, husd]
  split_ifs with hcurrency
  · exact iff_of_true rfl (.inl hcurrency)
  · dsimp only
    rw [Option.isSome_map, (StoredDbFxRateSource.select_of_coherent hcoherent currency "USD").1, hlook,
      StoredDbFxRateSource.look_isSome, convertible_of_health, or_iff_right hcurrency, husd,
      Prod.mk.injEq, and_iff_left rfl]
    rfl

end FxSource
end GuvFX
