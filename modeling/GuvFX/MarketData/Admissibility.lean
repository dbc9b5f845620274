/-
# When a release may be used

A release may be used on the side of the source from the instant on at which the source has evidently
had its data.  The manifest states this instant for the events of one interval, and the range of the
candles in other fields; the validation orders the instants behind the end of the events, but compares
the range with none of them.

The results say what an accepted manifest promises, and exactly when its candles have all closed and
been available wherever it may be used.
-/
import GuvFX.MarketData.ReleaseManifest

namespace GuvFX
namespace MarketData
namespace Release

/-! ### Admissibility -/

/-- A number is larger than zero, where it can be compared; what is falsy counts as zero. -/
def orZeroPositive : Option Json → Except ContractError Bool
  | none | some .null => .ok false
  | some (.bool b) => .ok b
  | some (.int n) => .ok (0 < n)
  | some (.float x) => .ok (x.chars.head? ≠ some '-' ∧ x.chars.head? ≠ some 'N' ∧
      (x.chars.head? = some 'I' ∨ (x.chars.takeWhile fun c => c ∉ ['e', 'E']).any
        fun c => '1' ≤ c ∧ c ≤ '9'))
  | some (.str s) => if s = "" then .ok false else .error (.exception "TypeError")
  | some (.arr items) => if items.isEmpty then .ok false else .error (.exception "TypeError")
  | some (.obj ms) => if ms.isEmpty then .ok false else .error (.exception "TypeError")

def hasText (v : Option Json) (text : String) : Bool :=
  match v with
  | some (.str s) => s == text
  | _ => false

def isResearchRelease (manifest : Json) : Except ContractError Bool :=
  if hasText (get manifest "release_completeness") "COMPLETE" then
    orZeroPositive (get manifest "row_count")
  else .ok false

def admissibleSourceSide (manifest cutoff : Json) : Except ContractError Bool := do
  if ← isResearchRelease manifest then
    let pit ← item manifest "point_in_time"
    let classification ← item pit "source_availability_classification"
    if hasText (some classification) "EVIDENCED" then
      let available ← item pit "source_available_at_utc"
      if isNull available then pure false
      else
        let avail ← parseCanonicalUtcInstant available
        let cut ← parseCanonicalUtcInstant cutoff
        pure (avail ≤ cut)
    else pure false
  else pure false

/-! ### What a manifest says -/

def rangeStart (m : Json) : Except ContractError ℤ := do
  let v ← item m "range_start_utc"
  minuteEpoch v "release.range_start_utc"

def rangeEnd (m : Json) : Except ContractError ℤ := do
  let v ← item m "range_end_utc"
  minuteEpoch v "release.range_end_utc"

/-- The beginning of the events whose availability is stated. -/
def eventStart (m : Json) : Except ContractError ℤ := do
  let pit ← item m "point_in_time"
  let v ← item pit "event_start_utc"
  minuteEpoch v (at_ "release.point_in_time" "event_start_utc")

def eventEnd (m : Json) : Except ContractError ℤ := do
  let pit ← item m "point_in_time"
  let v ← item pit "event_end_utc"
  minuteEpoch v (at_ "release.point_in_time" "event_end_utc")

def availableValue (m : Json) : Except ContractError Json := do
  let pit ← item m "point_in_time"
  item pit "source_available_at_utc"

def sourceAvailable (m : Json) : Except ContractError UtcInstant := do
  let v ← availableValue m
  parseCanonicalUtcInstant v

def complete (m : Json) : Bool := hasText (get m "release_completeness") "COMPLETE"

def evidenced (m : Json) : Bool :=
  match get m "point_in_time" with
  | some pit => hasText (get pit "source_availability_classification") "EVIDENCED"
  | none => false

/-- What an accepted manifest states: the range of its candles, the interval of the events whose
availability it is about, and the order of the instants. -/
structure Stated (m : Json) (rs re evS evE : ℤ) : Prop where
  range_start : rangeStart m = .ok rs
  range_end : rangeEnd m = .ok re
  event_start : eventStart m = .ok evS
  event_end : eventEnd m = .ok evE
  range_lt : rs < re
  event_lt : evS < evE
  rows : complete m = true → isResearchRelease m = .ok true
  /-- Where the availability is evidenced, it is not before the end of the events. -/
  available : evidenced m = true → ∃ text avail, availableValue m = .ok (.str text) ∧
    parseInstant text = .ok avail ∧ evE ≤ avail.epochS

/-! ### The validation -/

lemma pointInTime_of_check {m : Json} {u : Unit} (h : checkPointInTime m = .ok u) :
    ∃ evS evE, eventStart m = .ok evS ∧ eventEnd m = .ok evE ∧ evS < evE ∧
      (evidenced m = true → ∃ text avail, availableValue m = .ok (.str text) ∧
        parseInstant text = .ok avail ∧ evE ≤ avail.epochS) := by
  unfold checkPointInTime at h
  simp only [bind_eq_ok_iff] at h
  obtain ⟨pit, hpit, -, -, -, -, sv, hsv, ev, hev, evS, hS, evE, hE, _, hlt, classification, hclass,
    -, -, observed, -, -, -, ingested, -, -, -, validated, -, -, -, published, -, evEInst, hinst,
    av, hav, h⟩ := h
  refine ⟨evS, evE, ?_, ?_, ensure_eq_ok hlt, ?_⟩
  · unfold eventStart
    simp only [bind_eq_ok_iff]
    exact ⟨pit, hpit, sv, hsv, hS⟩
  · unfold eventEnd
    simp only [bind_eq_ok_iff]
    exact ⟨pit, hpit, ev, hev, hE⟩
  · intro hevid
    have hsome : get m "point_in_time" = some pit := item_eq_ok_iff.mp hpit
    have hc : classification = "EVIDENCED" := by
      simpa [evidenced, hsome, str_eq_ok hclass, hasText] using hevid
    rw [if_pos hc] at h
    simp only [bind_eq_ok_iff] at h
    obtain ⟨-, -, avail, havail, hchain⟩ := h
    have hparse := parse_of_instant havail
    cases av with
    | str text =>
      refine ⟨text, avail, ?_, hparse, ?_⟩
      · unfold availableValue
        simp only [bind_eq_ok_iff]
        exact ⟨pit, hpit, hav⟩
      · simp only [assertInstantChain, bind_eq_ok_iff] at hchain
        obtain ⟨_, hle, -⟩ := hchain
        have hnot : UtcInstant.NotBefore evEInst.epochS avail :=
          (UtcInstant.notBefore_iff.mpr le_rfl).trans (ensure_eq_ok hle)
        rw [← epochS_of_minuteEpoch hE hinst]
        exact UtcInstant.notBefore_iff.mp hnot
    | _ => cases hparse

lemma range_of_check {m : Json} {u : Unit} (h : checkRange m = .ok u) :
    ∃ rs re, rangeStart m = .ok rs ∧ rangeEnd m = .ok re ∧ rs < re := by
  unfold checkRange at h
  simp only [bind_eq_ok_iff] at h
  obtain ⟨sv, hsv, ev, hev, rs, hrs, re, hre, -, -, hlt⟩ := h
  refine ⟨rs, re, ?_, ?_, ensure_eq_ok hlt⟩
  · unfold rangeStart
    simp only [bind_eq_ok_iff]
    exact ⟨sv, hsv, hrs⟩
  · unfold rangeEnd
    simp only [bind_eq_ok_iff]
    exact ⟨ev, hev, hre⟩

lemma completeness_of_check {m : Json} {completeness : String}
    (h : checkCompleteness m = .ok completeness) :
    get m "release_completeness" = some (.str completeness) := by
  unfold checkCompleteness at h
  simp only [bind_eq_ok_iff] at h
  obtain ⟨-, -, -, -, -, -, stated, hstated, -, -, -, -, h⟩ := h
  cases h
  exact str_eq_ok hstated

lemma stated_of_valid {m : Json} (h : validateReleaseManifestV3 m = .ok ()) :
    ∃ rs re evS evE, Stated m rs re evS evE := by
  unfold validateReleaseManifestV3 at h
  simp only [bind_eq_ok_iff] at h
  obtain ⟨rid, -, seen, -, provenance, -, _, hrange, -, -, _, hpit, rows, hrows, scan, -,
    completeness, hcomplete, seen', -, h⟩ := h
  obtain ⟨rs, re, hrs, hre, hlt⟩ := range_of_check hrange
  obtain ⟨evS, evE, hS, hE, hevlt, havail⟩ := pointInTime_of_check hpit
  refine ⟨rs, re, evS, evE, ⟨hrs, hre, hS, hE, hlt, hevlt, ?_, havail⟩⟩
  · intro hc
    have hcc : completeness = "COMPLETE" := by
      simpa [complete, completeness_of_check hcomplete, hasText] using hc
    unfold checkReadyMarker at h
    simp only [bind_eq_ok_iff] at h
    simp only [if_pos hcc, bind_eq_ok_iff] at h
    obtain ⟨rm, -, _, -, _, -, present, -, last, -, path, -, taken, -, _, -, _, hpos, -⟩ := h
    have hpos := ensure_eq_ok hpos
    have hcv : hasText (get m "release_completeness") "COMPLETE" = true := hc
    unfold isResearchRelease
    rw [if_pos hcv, int_eq_ok hrows]
    simp [orZeroPositive, hpos]

/-! ### Look-ahead -/

/-- The interval of a candle, in seconds since the epoch. -/
structure Interval where
  start : ℤ
  stop : ℤ
  lt : start < stop

/-- The release may contain the candle. -/
def Interval.InRange (c : Interval) (m : Json) : Prop :=
  ∃ rs re, rangeStart m = .ok rs ∧ rangeEnd m = .ok re ∧ rs ≤ c.start ∧ c.stop ≤ re

def Interval.Closed (c : Interval) (cutoff : UtcInstant) : Prop := UtcInstant.NotBefore c.stop cutoff

/-- The manifest evidences that the source has had the candle: it is within the events whose
availability is stated. -/
def Interval.Available (c : Interval) (m : Json) (cutoff : UtcInstant) : Prop :=
  evidenced m = true ∧ (∃ avail, sourceAvailable m = .ok avail ∧ avail ≤ cutoff) ∧
    ∃ evS evE, eventStart m = .ok evS ∧ eventEnd m = .ok evE ∧ evS ≤ c.start ∧ c.stop ≤ evE

def Usable (m : Json) (cutoff : UtcInstant) : Prop :=
  ∃ text, parseInstant text = .ok cutoff ∧ admissibleSourceSide m (.str text) = .ok true

/-- Whatever a release may contain has closed and been available by every cutoff by which it may be
used, and it stays usable. -/
structure NoLookAhead (m : Json) : Prop where
  closed : ∀ cutoff, Usable m cutoff → ∀ c : Interval, c.InRange m →
    c.Closed cutoff ∧ c.Available m cutoff
  monotone : ∀ text text' cutoff cutoff', parseInstant text = .ok cutoff →
    parseInstant text' = .ok cutoff' → cutoff ≤ cutoff' →
    admissibleSourceSide m (.str text) = .ok true → admissibleSourceSide m (.str text') = .ok true

/-- The range of the candles lies within the events whose availability is stated. -/
def RangeEvidenced (m : Json) : Prop :=
  ∃ rs re evS evE, rangeStart m = .ok rs ∧ rangeEnd m = .ok re ∧ eventStart m = .ok evS ∧
    eventEnd m = .ok evE ∧ evS ≤ rs ∧ re ≤ evE

lemma admissible_iff {m : Json} {rs re evS evE : ℤ} (hm : Stated m rs re evS evE) {text : String}
    {cutoff : UtcInstant} (hc : parseInstant text = .ok cutoff) :
    admissibleSourceSide m (.str text) = .ok true ↔ complete m = true ∧ evidenced m = true ∧
      ∃ avail, sourceAvailable m = .ok avail ∧ avail ≤ cutoff := by
  have hcut : parseCanonicalUtcInstant (.str text) = .ok cutoff := hc
  constructor
  · intro h
    unfold admissibleSourceSide at h
    rw [bind_eq_ok_iff] at h
    obtain ⟨usable, huse, h⟩ := h
    cases usable with
    | false => cases h
    | true =>
      have hcomplete : complete m = true := by
        by_contra hne
        have hne' : ¬ hasText (get m "release_completeness") "COMPLETE" = true := hne
        rw [isResearchRelease, if_neg hne'] at huse
        cases huse
      simp only [if_true, bind_eq_ok_iff] at h
      obtain ⟨pit, hpit, classification, hclass, h⟩ := h
      by_cases hevid : hasText (some classification) "EVIDENCED" = true
      · rw [if_pos hevid, bind_eq_ok_iff] at h
        obtain ⟨av, hav, h⟩ := h
        have hevid' : evidenced m = true := by
          simpa only [evidenced, item_eq_ok_iff.mp hpit, item_eq_ok_iff.mp hclass] using hevid
        by_cases hnull : isNull av = true
        · rw [if_pos hnull] at h
          cases h
        · rw [if_neg hnull] at h
          simp only [bind_eq_ok_iff] at h
          obtain ⟨avail, havail, cut, hcut', h⟩ := h
          rw [hcut] at hcut'
          cases hcut'
          refine ⟨hcomplete, hevid', avail, ?_, ?_⟩
          · simp only [sourceAvailable, availableValue, bind_eq_ok_iff]
            exact ⟨av, ⟨pit, hpit, hav⟩, havail⟩
          · exact of_decide_eq_true (Except.ok.inj h)
      · rw [if_neg hevid] at h
        cases h
  · rintro ⟨hcomplete, hevid, avail, havail, hle⟩
    obtain ⟨text', avail', hvalue, hparse, -⟩ := hm.available hevid
    simp only [sourceAvailable, hvalue, bind_eq_ok_iff] at havail
    obtain ⟨av, hav, havail⟩ := havail
    cases hav
    simp only [availableValue, bind_eq_ok_iff] at hvalue
    obtain ⟨pit, hpit, hvalue⟩ := hvalue
    have hpit' := item_eq_ok_iff.mp hpit
    simp only [evidenced, hpit'] at hevid
    cases hclass : get pit "source_availability_classification" with
    | none => simp [hclass, hasText] at hevid
    | some classification =>
      rw [hclass] at hevid
      unfold admissibleSourceSide
      simp only [bind_eq_ok_iff]
      refine ⟨true, hm.rows hcomplete, ?_⟩
      simp only [if_true, bind_eq_ok_iff]
      refine ⟨pit, hpit, classification, item_eq_ok_iff.mpr hclass, ?_⟩
      rw [if_pos hevid, bind_eq_ok_iff]
      refine ⟨.str text', hvalue, ?_⟩
      rw [if_neg (by simp [isNull])]
      simp only [bind_eq_ok_iff]
      exact ⟨avail, havail, cutoff, hcut, by simp [hle]; rfl⟩

lemma usable_at_available {m : Json} {rs re evS evE : ℤ} (hm : Stated m rs re evS evE)
    (hcomplete : complete m = true) (hevid : evidenced m = true) :
    ∃ avail, sourceAvailable m = .ok avail ∧ Usable m avail ∧ evE ≤ avail.epochS := by
  obtain ⟨text, avail, hvalue, hparse, hle⟩ := hm.available hevid
  have havail : sourceAvailable m = .ok avail := by
    simp only [sourceAvailable, hvalue, bind_eq_ok_iff]
    exact ⟨_, rfl, hparse⟩
  exact ⟨avail, havail,
    ⟨text, hparse, (admissible_iff hm hparse).mpr ⟨hcomplete, hevid, avail, havail, le_rfl⟩⟩, hle⟩

lemma admissible_mono {m : Json} {rs re evS evE : ℤ} (hm : Stated m rs re evS evE)
    {text text' : String} {cutoff cutoff' : UtcInstant} (hc : parseInstant text = .ok cutoff)
    (hc' : parseInstant text' = .ok cutoff') (hle : cutoff ≤ cutoff')
    (h : admissibleSourceSide m (.str text) = .ok true) :
    admissibleSourceSide m (.str text') = .ok true := by
  obtain ⟨hcomplete, hevid, avail, havail, hat⟩ := (admissible_iff hm hc).mp h
  exact (admissible_iff hm hc').mpr ⟨hcomplete, hevid, avail, havail, hat.trans hle⟩

/-- The candles have closed wherever the release may be used exactly when its range ends before the
instant of the availability. -/
theorem closed_iff {m : Json} {rs re evS evE : ℤ} (hm : Stated m rs re evS evE) :
    (∀ cutoff, Usable m cutoff → ∀ c : Interval, c.InRange m → c.Closed cutoff) ↔
      (complete m = true → evidenced m = true →
        ∀ avail, sourceAvailable m = .ok avail → re ≤ avail.epochS) := by
  constructor
  · intro h hcomplete hevid avail havail
    obtain ⟨avail', havail', huse, -⟩ := usable_at_available hm hcomplete hevid
    rw [havail] at havail'
    cases havail'
    exact UtcInstant.notBefore_iff.mp
      (h avail huse ⟨rs, re, hm.range_lt⟩ ⟨rs, re, hm.range_start, hm.range_end, le_rfl, le_rfl⟩)
  · rintro h cutoff ⟨text, hparse, huse⟩ c ⟨rs', re', -, hre, -, hstop⟩
    rw [hm.range_end] at hre
    cases hre
    obtain ⟨hcomplete, hevid, avail, havail, hle⟩ := (admissible_iff hm hparse).mp huse
    have hbefore : UtcInstant.NotBefore c.stop avail :=
      UtcInstant.notBefore_iff.mpr (hstop.trans (h hcomplete hevid avail havail))
    exact hbefore.trans hle

/-- There is no look-ahead through an accepted release exactly when, if it is complete and its
availability is evidenced, its range lies within the events that the evidence is about. -/
theorem noLookAhead_iff {m : Json} (h : validateReleaseManifestV3 m = .ok ()) :
    NoLookAhead m ↔ (complete m = true → evidenced m = true → RangeEvidenced m) := by
  obtain ⟨rs, re, evS, evE, hm⟩ := stated_of_valid h
  constructor
  · intro hno hcomplete hevid
    obtain ⟨avail, -, huse, -⟩ := usable_at_available hm hcomplete hevid
    obtain ⟨-, -, -, s, e, hs, he, hstart, hstop⟩ := hno.closed avail huse ⟨rs, re, hm.range_lt⟩
      ⟨rs, re, hm.range_start, hm.range_end, le_rfl, le_rfl⟩
    exact ⟨rs, re, s, e, hm.range_start, hm.range_end, hs, he, hstart, hstop⟩
  · intro hrange
    refine ⟨?_, fun text text' cutoff cutoff' hc hc' hle => admissible_mono hm hc hc' hle⟩
    rintro cutoff ⟨text, hparse, huse⟩ c ⟨rs', re', hrs, hre, hstart, hstop⟩
    obtain ⟨hcomplete, hevid, avail, havail, hle⟩ := (admissible_iff hm hparse).mp huse
    obtain ⟨rs₁, re₁, s, e, hrs₁, hre₁, hs, he, hin, hout⟩ := hrange hcomplete hevid
    rw [hrs] at hrs₁
    rw [hre] at hre₁
    cases hrs₁
    cases hre₁
    -- the end of the events is not after the instant of the availability
    obtain ⟨text', avail', hvalue, hparse', hend⟩ := hm.available hevid
    have havail' : sourceAvailable m = .ok avail' := by
      simp only [sourceAvailable, hvalue, bind_eq_ok_iff]
      exact ⟨_, rfl, hparse'⟩
    rw [havail] at havail'
    cases havail'
    rw [hm.event_end] at he
    cases he
    have hbefore : UtcInstant.NotBefore c.stop avail :=
      UtcInstant.notBefore_iff.mpr ((hstop.trans hout).trans hend)
    exact ⟨hbefore.trans hle, hevid, ⟨avail, havail, hle⟩, s, evE, hs, hm.event_end,
      hin.trans hstart, hstop.trans hout⟩

/-! ### The texts of a manifest -/

mutual

def texts : Json → List String
  | .str s => [s]
  | .arr items => textsOfItems items
  | .obj members => textsOfMembers members
  | _ => []

def textsOfItems : List Json → List String
  | [] => []
  | v :: vs => texts v ++ textsOfItems vs

def textsOfMembers : List (String × Json) → List String
  | [] => []
  | (key, v) :: ms => key :: (texts v ++ textsOfMembers ms)

end

/-- A text that passes as a key and as a value, by its characters. -/
def harmless (cs : List Char) : Bool :=
  let bare := ((cs.dropWhile Text.isSpace).reverse.dropWhile Text.isSpace).reverse
  let folded := bare.map fun c => if c.toNat = 0x212A then 'k' else c.toLower
  (prohibitedKeys.all fun key => folded ≠ key.toList) && !cs.any (·.toNat < 0x20)

lemma not_isProhibited {key : String} (h : harmless key.toList = true) : isProhibited key = false := by
  simp only [harmless, Bool.and_eq_true, List.all_eq_true, decide_eq_true_eq] at h
  rw [isProhibited, decide_eq_false_iff_not]
  intro hmem
  refine h.1 _ hmem ?_
  simp only [Text.lower, Text.strip, String.toList_ofList]

mutual

lemma findProhibitedKey_eq_none : ∀ v : Json, (∀ t ∈ texts v, harmless t.toList = true) →
    findProhibitedKey v = none
  | .arr items, h => findInItems_eq_none items h
  | .obj members, h => findInMembers_eq_none members h
  | .null, _ | .bool _, _ | .int _, _ | .float _, _ | .str _, _ => rfl

lemma findInItems_eq_none : ∀ vs : List Json, (∀ t ∈ textsOfItems vs, harmless t.toList = true) →
    findInItems vs = none
  | [], _ => rfl
  | v :: vs, h => by
    rw [textsOfItems, List.forall_mem_append] at h
    rw [findInItems, findProhibitedKey_eq_none v h.1, findInItems_eq_none vs h.2, Option.none_or]

lemma findInMembers_eq_none : ∀ ms : List (String × Json),
    (∀ t ∈ textsOfMembers ms, harmless t.toList = true) → findInMembers ms = none
  | [], _ => rfl
  | (key, v) :: ms, h => by
    rw [textsOfMembers, List.forall_mem_cons, List.forall_mem_append] at h
    rw [findInMembers, not_isProhibited h.1, findProhibitedKey_eq_none v h.2.1,
      findInMembers_eq_none ms h.2.2]
    rfl

end

mutual

lemma controlPlace_eq_none : ∀ (v : Json) (place : String),
    (∀ t ∈ texts v, harmless t.toList = true) → controlPlace place v = none
  | .str s, place, h => by
    have hs := h s List.mem_cons_self
    simp only [harmless, Bool.and_eq_true, Bool.not_eq_true'] at hs
    rw [controlPlace, hs.2]
    rfl
  | .arr items, place, h => controlInItems_eq_none items place 0 h
  | .obj members, place, h => controlInMembers_eq_none members place h
  | .null, _, _ | .bool _, _, _ | .int _, _, _ | .float _, _, _ => rfl

lemma controlInItems_eq_none : ∀ (vs : List Json) (place : String) (i : ℕ),
    (∀ t ∈ textsOfItems vs, harmless t.toList = true) → controlInItems place i vs = none
  | [], _, _, _ => rfl
  | v :: vs, place, i, h => by
    rw [textsOfItems, List.forall_mem_append] at h
    rw [controlInItems, controlInItems_eq_none vs place (i + 1) h.2, controlPlace_eq_none v _ h.1,
      Option.none_or]

lemma controlInMembers_eq_none : ∀ (ms : List (String × Json)) (place : String),
    (∀ t ∈ textsOfMembers ms, harmless t.toList = true) → controlInMembers place ms = none
  | [], _, _ => rfl
  | (key, v) :: ms, place, h => by
    rw [textsOfMembers, List.forall_mem_cons, List.forall_mem_append] at h
    rw [controlInMembers, controlInMembers_eq_none ms place h.2.2, controlPlace_eq_none v _ h.2.1,
      Option.none_or]

end

/-! ### A manifest -/

def plainDigest (c : Char) : String := String.ofList (List.replicate 64 c)

def releasePath (name : String) : Json := .str ("rel_synth/" ++ name)

def fileEntry (role media : String) (rows : Json) : Json :=
  .obj [("relative_path", releasePath role), ("media_type", .str media), ("byte_size", .int 1024),
    ("digest", .obj [("algorithm", .str "sha256"), ("value", .str (plainDigest 'a'))]),
    ("logical_role", .str role), ("schema_version", .str "1.0"), ("validator_version", .str "0.3.0"),
    ("row_count", rows)]

def evidenceEntry (role : String) : Json :=
  .obj [("contract_version", .str "1.0"), ("relative_path", releasePath role),
    ("sha256", .str (plainDigest 'a'))]

def weekManifest (rangeEnd : String) : Json :=
  .obj [("schema_version", .str "3.0"), ("contract_version", .str "0.3"),
    ("release_id", .str "rel_synth"), ("supersedes_release_id", .null), ("supersession", .null),
    ("source_id", .str "mt5_research_synth"), ("canonical_symbol", .str "EURUSD"),
    ("broker_native_symbol", .str "EURUSD"), ("asset_class", .str "fx"), ("timeframe", .str "M1"),
    ("representation", .str "bid_ohlc"), ("price_basis", .str "bid"),
    ("provenance", .str "NATIVE"), ("derivation", .null), ("canonical_format", .str "parquet"),
    ("range_start_utc", .str "2026-01-05T00:00:00Z"), ("range_end_utc", .str rangeEnd),
    ("range_semantics", .str "[start,end)"),
    ("point_in_time", .obj [("event_start_utc", .str "2026-01-05T00:00:00Z"),
      ("event_end_utc", .str "2026-01-12T00:00:00Z"),
      ("source_available_at_utc", .str "2026-01-12T00:00:02Z"),
      ("source_availability_classification", .str "EVIDENCED"),
      ("collector_observed_at_utc", .str "2026-01-12T00:00:05Z"),
      ("ingested_at_utc", .str "2026-01-12T00:00:06Z"),
      ("validated_at_utc", .str "2026-01-12T00:02:00Z"),
      ("published_at_utc", .str "2026-01-12T00:03:00Z")]),
    ("row_count", .int 10080), ("uniqueness_key", .arr [.str "event_start_utc"]),
    ("files", .arr (fileEntry "canonical_parquet" mediaParquet (.int 10080) ::
      evidenceRoles.map fun role => fileEntry role "application/json" .null)),
    ("evidence", .obj (evidenceRoles.map fun role => (role, evidenceEntry role))),
    ("validator_pinning", .obj [("schema_version", .str "3.0"), ("validator_id", .str "guvfx_tim_v0_3"),
      ("validator_version", .str "0.3.0"), ("validator_digest", .str (plainDigest 'b')),
      ("compatibility_range", .str ">=0.3.0,<0.4.0")]),
    ("contract_bundle_digest", .str (plainDigest 'c')),
    ("validator_bundle_digest", .str (plainDigest 'd')),
    ("release_completeness", .str "COMPLETE"), ("partial_release_allowed", .bool false),
    ("producer_identity", .str "guvfx_producer_synth"), ("producer_version", .str "0.3.0"),
    ("signing_key_id", .str "synthkey1"), ("signature_path", releasePath "manifest.sig.json"),
    ("ready_marker", .obj [("present", .bool true), ("written_last", .bool true),
      ("ready_marker_path", releasePath "READY")]),
    ("licensing_classification", .str "internal_research_only"), ("synthetic", .bool true),
    ("limitations", .arr [])]

set_option maxRecDepth 8000 in
lemma harmless_texts_week {e : String} (h : harmless e.toList = true) :
    ∀ t ∈ texts (weekManifest e), harmless t.toList = true := by
  have hall : (texts (weekManifest e)).all (fun t => harmless t.toList) = true := by
    simp only [weekManifest, fileEntry, evidenceEntry, releasePath, evidenceRoles, texts,
      textsOfMembers, textsOfItems, List.map_cons, List.map_nil, List.cons_append, List.nil_append,
      List.append_nil, List.all_cons, List.all_nil, plainDigest, String.toList_ofList,
      String.toList_append, String.reduceToList, mediaParquet, h]
    decide +kernel
  exact List.all_eq_true.mp hall

lemma header_week {e : String} (h : harmless e.toList = true) :
    noProhibited (weekManifest e) "release" = .ok () ∧
      rejectControlStrings (weekManifest e) "release" = .ok () := by
  have htexts := harmless_texts_week h
  constructor
  · rw [noProhibited, findProhibitedKey_eq_none _ htexts]
  · rw [rejectControlStrings, controlPlace_eq_none _ _ htexts]

/-- Both ends are accepted. -/
lemma validate_week : validateReleaseManifestV3 (weekManifest "2026-01-12T00:00:00Z") = .ok () ∧
    validateReleaseManifestV3 (weekManifest "2026-01-13T00:00:00Z") = .ok () := by
  obtain ⟨hkeys, hcontrol⟩ := header_week (e := "2026-01-12T00:00:00Z") (by decide +kernel)
  obtain ⟨hkeys', hcontrol'⟩ := header_week (e := "2026-01-13T00:00:00Z") (by decide +kernel)
  simp only [validateReleaseManifestV3, checkHeader, hkeys, hcontrol, hkeys', hcontrol']
  decide +kernel

theorem noLookAhead_week : NoLookAhead (weekManifest "2026-01-12T00:00:00Z") := by
  refine (noLookAhead_iff validate_week.1).mpr fun _ _ => ?_
  refine ⟨1767571200, 1768176000, 1767571200, 1768176000, ?_, ?_, ?_, ?_, le_rfl, le_rfl⟩ <;>
    decide +kernel

/-- The range goes on for a day after the end of the events: the release may be used before the last
candle of its range has closed. -/
theorem noLookAhead_broken : ¬ ∀ m, validateReleaseManifestV3 m = .ok () → NoLookAhead m := by
  intro h
  have hvalid := validate_week.2
  obtain ⟨rs, re, evS, evE, hm⟩ := stated_of_valid hvalid
  have hclosed := (closed_iff hm).mp fun cutoff huse c hc => ((h _ hvalid).closed cutoff huse c hc).1
  obtain ⟨avail, havail, -, -⟩ := usable_at_available hm (by decide +kernel) (by decide +kernel)
  have hle := hclosed (by decide +kernel) (by decide +kernel) avail havail
  -- the two instants of the manifest
  have hre : rangeEnd (weekManifest "2026-01-13T00:00:00Z") = .ok 1768262400 := by decide +kernel
  have hepoch : (sourceAvailable (weekManifest "2026-01-13T00:00:00Z")).map (·.epochS) =
      .ok 1768176002 := by decide +kernel
  rw [hm.range_end] at hre
  rw [havail] at hepoch
  cases hre
  have hsecond : avail.epochS = 1768176002 := Except.ok.inj hepoch
  omega

end Release
end MarketData
end GuvFX
