/-
# The validation of a release manifest

A manifest names the data of a release and its range, the instants at which the data became known and
went through the pipeline, the files with their digests and the evidence.  The validation goes through
the parts of the manifest in the order of the fields; what it has to remember, the paths that are taken
and the files by their paths and roles, is passed on from one part to the next.
-/
import GuvFX.MarketData.TimContracts

namespace GuvFX
namespace MarketData
namespace Release

/-! ### The fields -/

def contractVersion : String := "0.3"

def evidenceRoles : List String :=
  ["source_eligibility", "broker_server_identity", "instrument_mapping", "timezone_evidence",
    "licensing", "quality_report", "gap_report", "watermark", "quality_coverage"]

def mediaParquet : String := "application/vnd.apache.parquet"
def mediaNdjson : String := "application/x-ndjson"

def fileRoles : List String :=
  ["canonical_parquet", "raw_ndjson", "quality_report", "gap_report", "watermark",
    "source_eligibility", "broker_server_identity", "instrument_mapping", "timezone_evidence",
    "licensing", "quality_coverage", "supersession"]

def releaseV3Fields : List String :=
  ["schema_version", "contract_version", "release_id", "supersedes_release_id", "supersession",
    "source_id", "canonical_symbol", "broker_native_symbol", "asset_class", "timeframe",
    "representation", "price_basis", "provenance", "derivation", "canonical_format",
    "range_start_utc", "range_end_utc", "range_semantics", "point_in_time", "row_count",
    "uniqueness_key", "files", "evidence", "validator_pinning", "contract_bundle_digest",
    "validator_bundle_digest", "release_completeness", "partial_release_allowed",
    "producer_identity", "producer_version", "signing_key_id", "signature_path", "ready_marker",
    "licensing_classification", "synthetic", "limitations"]

def pitFields : List String :=
  ["event_start_utc", "event_end_utc", "source_available_at_utc",
    "source_availability_classification", "collector_observed_at_utc", "ingested_at_utc",
    "validated_at_utc", "published_at_utc"]

def fileFields : List String :=
  ["relative_path", "media_type", "byte_size", "digest", "logical_role", "schema_version",
    "validator_version", "row_count"]

def pinningFields : List String :=
  ["schema_version", "validator_id", "validator_version", "validator_digest", "compatibility_range"]

def rm3Fields : List String := ["present", "written_last", "ready_marker_path"]

def derivationFields : List String :=
  ["source_timeframe", "derivation_version", "calendar_id", "calendar_version", "bucket_policy",
    "session_timezone", "dst_policy", "price_basis"]

/-- The texts of the fields that occur in several places. -/
def slug : StrRule := { regex := some slugRe, maxLen := some 64 }
def sha256 : StrRule := { regex := some sha256Re, minLen := 64, maxLen := some 64 }
def relPath : StrRule := { regex := some relPathRe, maxLen := some 512 }
def upTo (n : ℕ) : StrRule := { maxLen := some n }
def oneOf (options : List String) : StrRule := { oneOf := some options }

/-! ### Parts -/

mutual

/-- The place of a control character within a value.  The walk keeps a stack: it goes through the
members of an object from the last one to the first one. -/
def controlPlace (place : String) : Json → Option String
  | .str s => if s.toList.any (·.toNat < 0x20) then some place else none
  | .arr items => controlInItems place 0 items
  | .obj members => controlInMembers place members
  | _ => none

def controlInItems (place : String) (i : ℕ) : List Json → Option String
  | [] => none
  | v :: vs =>
    (controlInItems place (i + 1) vs).or (controlPlace (place ++ "[" ++ toString i ++ "]") v)

def controlInMembers (place : String) : List (String × Json) → Option String
  | [] => none
  | (key, v) :: ms => (controlInMembers place ms).or (controlPlace (at_ place key) v)

end

def rejectControlStrings (obj : Json) (place : String) : Except ContractError Unit :=
  match controlPlace place obj with
  | some p => .error (.controlCharacter p)
  | none => .ok ()

def isObject : Json → Bool
  | .obj _ => true
  | _ => false

def digest (obj : Json) (place : String) : Except ContractError String := do
  ensure (isObject obj) (.notObject place)
  exactKeys obj ["algorithm", "value"] place
  const obj "algorithm" place "sha256"
  str obj "value" place sha256

/-- A reference to a file that proves something: its path and its digest. -/
def evidenceRef (obj : Json) (place : String) : Except ContractError (String × String) := do
  ensure (isObject obj) (.notObject place)
  exactKeys obj ["contract_version", "relative_path", "sha256"] place
  let _ ← str obj "contract_version" place (upTo 16)
  let path ← str obj "relative_path" place relPath
  let sha ← str obj "sha256" place sha256
  pure (path, sha)

/-- A path has to lie below the root of the release and to differ from the earlier ones, also when the
case is ignored.  The paths that are taken are returned. -/
def requireReleaseRel (base : String) (seen : List String) (path place : String) :
    Except ContractError (List String) := do
  ensure (base.toList.isPrefixOf path.toList) (.rule place ("path '" ++ path
    ++ "' must be release-root-relative (start with '" ++ base ++ "')"))
  let folded := Text.casefold path
  ensure (folded ∉ seen) (.rule place ("path '" ++ path
    ++ "' collides (case-insensitively) with another release path"))
  pure (folded :: seen)

/-- A release that supersedes another one says why; the others say nothing. -/
def checkSupersession (obj : Json) (rid base : String) : Except ContractError (List String) := do
  let supId ← item obj "supersedes_release_id"
  let sup ← item obj "supersession"
  if isNull supId then
    ensure (isNull sup) (.rule "release" "supersession must be null when supersedes_release_id is null")
    pure []
  else
    let id ← str obj "supersedes_release_id" "release" slug
    ensure (id ≠ rid) (.rule "release" "supersedes_release_id must differ from release_id (loop guard)")
    ensure (isObject sup) (.rule "release" "supersedes_release_id requires a supersession object")
    exactKeys sup ["reason", "scope", "supersession_ref"] "release.supersession"
    let _ ← str sup "reason" "release.supersession" (upTo 512)
    let _ ← str sup "scope" "release.supersession" (oneOf ["FULL", "PARTIAL_WINDOW", "CORRECTION"])
    let ref ← item sup "supersession_ref"
    let (path, _) ← evidenceRef ref "release.supersession.supersession_ref"
    requireReleaseRel base [] path "release.supersession.supersession_ref"

/-- Derived data say what they have been derived from, native data do not. -/
def checkDerivation (obj : Json) (provenance : String) : Except ContractError Unit := do
  let d ← item obj "derivation"
  if provenance = "DERIVED" then
    ensure (isObject d) (.rule "release" "DERIVED requires a derivation lineage object")
    exactKeys d derivationFields "release.derivation"
    let source ← str d "source_timeframe" "release.derivation"
      (oneOf ["M1", "M5", "M15", "M30", "H1", "H4", "D1"])
    let _ ← str d "derivation_version" "release.derivation" (upTo 32)
    let _ ← str d "calendar_id" "release.derivation" slug
    let _ ← str d "calendar_version" "release.derivation" (upTo 32)
    const d "bucket_policy" "release.derivation" "left_closed_right_open"
    let _ ← str d "session_timezone" "release.derivation" (upTo 64)
    let _ ← str d "dst_policy" "release.derivation" (oneOf ["calendar_versioned", "utc_fixed"])
    let _ ← str d "price_basis" "release.derivation" (oneOf ["bid"])
    let target ← str obj "timeframe" "release" (oneOf timeframes)
    ensure (secondsOf source < secondsOf target ∧ secondsOf target % secondsOf source = 0)
      (.rule "release" ("DERIVED timeframe must be strictly coarser than, and an integer multiple of, "
        ++ "source_timeframe"))
  else
    ensure (isNull d) (.rule "release" "NATIVE must not carry a derivation object")

def assertInstantChain (place : String) : List (String × UtcInstant) → Except ContractError Unit
  | (pn, pv) :: (cn, cv) :: rest => do
    ensure (pv ≤ cv) (.rule place (cn ++ " must be >= " ++ pn ++ " (point-in-time chain out of order)"))
    assertInstantChain place ((cn, cv) :: rest)
  | _ => .ok ()

/-- The instants of the data and of the pipeline. -/
def checkPointInTime (obj : Json) : Except ContractError Unit := do
  let place := "release.point_in_time"
  let pit ← item obj "point_in_time"
  ensure (isObject pit) (.notObject place)
  exactKeys pit pitFields place
  let eventStart ← item pit "event_start_utc"
  let eventEnd ← item pit "event_end_utc"
  let evS ← minuteEpoch eventStart (at_ place "event_start_utc")
  let evE ← minuteEpoch eventEnd (at_ place "event_end_utc")
  ensure (evS < evE) (.rule place "event_end must be after event_start (half-open)")
  let classification ← str pit "source_availability_classification" place
    (oneOf ["EVIDENCED", "UNKNOWN_RETROSPECTIVE"])
  let observedAt ← item pit "collector_observed_at_utc"
  let observed ← instant observedAt (at_ place "collector_observed_at_utc")
  let ingestedAt ← item pit "ingested_at_utc"
  let ingested ← instant ingestedAt (at_ place "ingested_at_utc")
  let validatedAt ← item pit "validated_at_utc"
  let validated ← instant validatedAt (at_ place "validated_at_utc")
  let publishedAt ← item pit "published_at_utc"
  let published ← instant publishedAt (at_ place "published_at_utc")
  let evEInst ← parseCanonicalUtcInstant eventEnd
  let availableAt ← item pit "source_available_at_utc"
  let pipeline := [("collector_observed_at_utc", observed), ("ingested_at_utc", ingested),
    ("validated_at_utc", validated), ("published_at_utc", published)]
  if classification = "EVIDENCED" then
    ensure (isNull availableAt = false)
      (.rule place "EVIDENCED requires a source_available_at_utc")
    let avail ← instant availableAt (at_ place "source_available_at_utc")
    assertInstantChain place
      (("event_end_utc", evEInst) :: ("source_available_at_utc", avail) :: pipeline)
  else
    ensure (isNull availableAt)
      (.rule place "UNKNOWN_RETROSPECTIVE must leave source_available_at_utc null")
    assertInstantChain place (("event_end_utc", evEInst) :: pipeline)

/-! ### Files and evidence -/

/-- What has been seen of the files. -/
structure Scan where
  /-- The paths that are taken, without case. -/
  seen : List String
  byPath : List (String × String × String) := []
  /-- The row counts of the canonical files. -/
  canonical : List (Option ℤ) := []

def checkFile (base : String) (scan : Scan) (i : ℕ) (f : Json) : Except ContractError Scan := do
  let place := "release.files[" ++ toString i ++ "]"
  exactKeys f fileFields place
  let path ← str f "relative_path" place relPath
  let seen ← requireReleaseRel base scan.seen path place
  let media ← str f "media_type" place
    (oneOf [mediaParquet, mediaNdjson, "application/json", "text/plain"])
  let _ ← int f "byte_size" place
  let d ← item f "digest"
  let sha ← digest d (at_ place "digest")
  let role ← str f "logical_role" place (oneOf fileRoles)
  let _ ← str f "schema_version" place (upTo 16)
  let _ ← str f "validator_version" place (upTo 16)
  let rows ← nullableInt f "row_count" place
  ensure (path ∉ scan.byPath.map (·.1)) (.rule place ("duplicate relative_path '" ++ path ++ "'"))
  ensure (role = "canonical_parquet" → media = mediaParquet)
    (.rule place ("canonical_parquet must be " ++ mediaParquet))
  ensure (role = "raw_ndjson" → media = mediaNdjson)
    (.rule place ("raw_ndjson must be " ++ mediaNdjson))
  pure { seen := seen, byPath := (path, role, sha) :: scan.byPath,
         canonical := if role = "canonical_parquet" then rows :: scan.canonical else scan.canonical }

def checkFiles (base : String) : Scan → ℕ → List Json → Except ContractError Scan
  | scan, _, [] => .ok scan
  | scan, i, f :: fs => do
    let scan ← checkFile base scan i f
    checkFiles base scan (i + 1) fs

/-- Every role of the evidence is a file of that role with that digest. -/
def checkEvidence (evidence : Json) (scan : Scan) : List String → Except ContractError Unit
  | [] => .ok ()
  | role :: roles => do
    let place := "release.evidence." ++ role
    let e ← item evidence role
    let (path, sha) ← evidenceRef e place
    match scan.byPath.find? fun f => f.1 = path with
    | some (_, role', sha') =>
      ensure (role' = role) (.rule place ("must reference a release file of role '" ++ role ++ "'"))
      ensure (sha' = sha) (.rule place "sha256 must match the bound file digest")
    | none => .error (.rule place ("must reference a release file of role '" ++ role ++ "'"))
    checkEvidence evidence scan roles

/-- The validator that the release is bound to. -/
def checkPinning (obj : Json) : Except ContractError Unit := do
  let place := "release.validator_pinning"
  let pin ← item obj "validator_pinning"
  ensure (isObject pin) (.notObject place)
  exactKeys pin pinningFields place
  const pin "schema_version" place "3.0"
  let _ ← str pin "validator_id" place slug
  let _ ← str pin "validator_version" place (upTo 32)
  let _ ← str pin "validator_digest" place sha256
  let _ ← str pin "compatibility_range" place (upTo 32)

def checkReadyMarker (obj : Json) (base completeness : String) (rowCount : ℤ) (scan : Scan)
    (seen : List String) : Except ContractError Unit := do
  let place := "release.ready_marker"
  let rm ← item obj "ready_marker"
  ensure (isObject rm) (.notObject place)
  exactKeys rm rm3Fields place
  let present ← bool rm "present" place
  let writtenLast ← bool rm "written_last" place
  let path ← str rm "ready_marker_path" place relPath
  let _ ← requireReleaseRel base seen path (at_ place "ready_marker_path")
  if completeness = "COMPLETE" then
    ensure (present = true ∧ writtenLast = true)
      (.rule "release" "COMPLETE requires a READY marker present AND written last")
    ensure (0 < rowCount) (.rule "release" "COMPLETE requires row_count > 0 (no empty release)")
    ensure (∀ rows ∈ scan.canonical.head?, 0 < rows.getD 0)
      (.rule "release" "COMPLETE requires the canonical_parquet file to have row_count > 0")
  else pure ()

def isFalse : Json → Bool
  | .bool false => true
  | _ => false

/-- The versions and the name of the release. -/
def checkHeader (obj : Json) : Except ContractError String := do
  noProhibited obj "release"
  rejectControlStrings obj "release"
  exactKeys obj releaseV3Fields "release"
  const obj "schema_version" "release" "3.0"
  const obj "contract_version" "release" contractVersion
  str obj "release_id" "release" slug

/-- What the data are of; the provenance is returned. -/
def checkIdentity (obj : Json) : Except ContractError String := do
  let _ ← str obj "source_id" "release" slug
  let _ ← str obj "canonical_symbol" "release" { regex := some canonicalSymbolRe }
  let _ ← str obj "broker_native_symbol" "release" (upTo 64)
  let _ ← str obj "asset_class" "release" (oneOf assetClasses)
  let _ ← str obj "timeframe" "release" (oneOf timeframes)
  let _ ← str obj "representation" "release" (oneOf ["bid_ohlc"])
  let _ ← str obj "price_basis" "release" (oneOf ["bid"])
  let provenance ← str obj "provenance" "release" (oneOf ["NATIVE", "DERIVED"])
  const obj "canonical_format" "release" "parquet"
  pure provenance

def checkRange (obj : Json) : Except ContractError Unit := do
  let rangeStart ← item obj "range_start_utc"
  let rangeEnd ← item obj "range_end_utc"
  let rs ← minuteEpoch rangeStart "release.range_start_utc"
  let re ← minuteEpoch rangeEnd "release.range_end_utc"
  const obj "range_semantics" "release" "[start,end)"
  ensure (rs < re) (.rule "release" "range_end_utc must be after range_start_utc (half-open)")

/-- The files, of which exactly one is the canonical one. -/
def checkPayload (obj : Json) (base : String) (seen : List String) : Except ContractError Scan := do
  let uk ← strArray obj "uniqueness_key" "release"
  ensure (uk.isEmpty = false) (.rule "release" "uniqueness_key must be non-empty")
  let files ← array obj "files" "release"
  ensure (files.isEmpty = false) (.rule "release" "files must be non-empty")
  let scan ← checkFiles base { seen := seen } 0 files
  ensure (scan.canonical.isEmpty = false) (.rule "release"
    "a canonical release requires a canonical_parquet file (NDJSON-only rejected)")
  ensure (scan.canonical.length = 1)
    (.rule "release" "exactly one canonical_parquet file is permitted")
  let evidence ← item obj "evidence"
  ensure (isObject evidence) (.notObject "release.evidence")
  exactKeys evidence evidenceRoles "release.evidence"
  checkEvidence evidence scan evidenceRoles
  pure scan

/-- The digests of the contracts, and whether the release is complete. -/
def checkCompleteness (obj : Json) : Except ContractError String := do
  checkPinning obj
  let _ ← str obj "contract_bundle_digest" "release" sha256
  let _ ← str obj "validator_bundle_digest" "release" sha256
  let completeness ← str obj "release_completeness" "release" (oneOf ["COMPLETE", "INCOMPLETE"])
  let partialAllowed ← item obj "partial_release_allowed"
  ensure (isFalse partialAllowed) (.rule "release"
    "partial_release_allowed must be false (pilot prohibits partial releases)")
  pure completeness

/-- Who has produced and signed the release; the paths that are taken are returned. -/
def checkSigning (obj : Json) (base : String) (seen : List String) :
    Except ContractError (List String) := do
  let _ ← str obj "producer_identity" "release" slug
  let _ ← str obj "producer_version" "release" (upTo 64)
  let _ ← str obj "signing_key_id" "release" slug
  let signaturePath ← str obj "signature_path" "release" relPath
  let seen ← requireReleaseRel base seen signaturePath "release.signature_path"
  let _ ← str obj "licensing_classification" "release" (oneOf licensing)
  let _ ← bool obj "synthetic" "release"
  let _ ← strArray obj "limitations" "release"
  pure seen

/-- The checks of the source, in their order. -/
def validateReleaseManifestV3 (obj : Json) : Except ContractError Unit := do
  let rid ← checkHeader obj
  let base := rid ++ "/"
  let seen ← checkSupersession obj rid base
  let provenance ← checkIdentity obj
  checkRange obj
  checkDerivation obj provenance
  checkPointInTime obj
  let rowCount ← int obj "row_count" "release"
  let scan ← checkPayload obj base seen
  let completeness ← checkCompleteness obj
  let seen ← checkSigning obj base scan.seen
  checkReadyMarker obj base completeness rowCount scan seen

end Release
end MarketData
end GuvFX
