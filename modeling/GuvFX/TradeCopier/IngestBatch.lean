/-
# The ingestion of a batch

A verified envelope carries a batch of revisions.  Those that claim another account, are malformed,
or claim another broker identity are rejected; each of the others becomes a row in a transaction of
its own, unless its ticket and number have a row already.
-/
import GuvFX.Lib.Text
import GuvFX.TradeCopier.EmittedPositions
import GuvFX.TradeCopier.EventProjection

namespace GuvFX
namespace IngestBatch

open Emitter EventProjection Observer Revisions

def maxRevisionsPerBatch : ℕ := 500

def revisionFromPayload (r : RevisionPayload) : PositionRevision where
  ticket := r.ticket
  revision := r.revision
  observedTime := some r.observedTime
  brokerEventTime := r.brokerEventTime
  closed := r.position.isNone
  symbol := (r.position.map (·.symbol)).getD ""
  side := (r.position.map (·.side)).getD ""
  volume := (r.position.map (·.volume)).getD 0
  sl := r.position.bind (·.sl)
  tp := r.position.bind (·.tp)
  priceOpen := r.position.bind (·.priceOpen)
  openTime := r.position.bind (·.openTime)
  originalVolume := r.position.bind (·.originalVolume)

/-- The broker identity that a master account must have; a login that cannot be found matches
none. -/
structure ExpectedIdentity where
  login : Option String
  server : Option String
  deriving DecidableEq, Repr

/-- A revision without a login is bound by the signature alone. -/
def identityMatches (r : RevisionPayload) (expected : ExpectedIdentity) : Bool :=
  if r.brokerLogin = "" then true
  else
    match expected.login with
    | none => false
    | some login =>
      Text.strip r.brokerLogin = Text.strip login ∧
        (r.brokerServer = "" ∨ expected.server.getD "" = "" ∨
          Text.casefold (Text.strip r.brokerServer) =
            Text.casefold (Text.strip (expected.server.getD "")))

def rejection (accountId : ℤ) (expected : ExpectedIdentity) (r : RevisionPayload) :
    Option String :=
  if r.accountId ≠ accountId then some "account_scope_violation"
  else
    match (revisionFromPayload r).structurallyInvalid with
    | some why => some why
    | none => if identityMatches r expected then none else some "identity_mismatch"

/-- The ingestion of a batch that is under way. -/
structure IngestRequest where
  kept : List PositionRevision
  accepted : ℕ := 0
  duplicates : ℕ := 0
  rejected : List (ℤ × ℤ × String) := []
  deriving DecidableEq, Repr

/-- The first half: the checks of the batch, and of each revision in it.  The accounts of the
masters have an identity. -/
def startIngest (masters : ℤ → Option ExpectedIdentity) (accountId : ℤ)
    (revisions : List RevisionPayload) : Except String IngestRequest :=
  match masters accountId with
  | none => .error "account_not_master"
  | some expected =>
    if revisions = [] then .error "empty_batch"
    else if maxRevisionsPerBatch < revisions.length then .error "too_many_revisions"
    else
      .ok
        { kept := (revisions.filter fun r => (rejection accountId expected r).isNone).map
            revisionFromPayload
          rejected := revisions.filterMap fun r =>
            (rejection accountId expected r).map fun why => (r.ticket, r.revision, why) }

structure Rows where
  rows : List IngestedRevision
  nextId : ℕ

/-- The second half, one revision: it is stored, a duplicate, or it does not fit its columns and the
request fails.  The id is taken in any case. -/
def ingestNext (db : Rows) (request : IngestRequest) : Rows × Option IngestRequest :=
  match request.kept with
  | [] => (db, none)
  | r :: rest =>
    match insertRevision db.nextId db.rows r with
    | .ok row =>
      ({ rows := db.rows ++ [row], nextId := db.nextId + 1 },
        some { request with kept := rest, accepted := request.accepted + 1 })
    | .error .integrityError =>
      ({ db with nextId := db.nextId + 1 },
        some { request with kept := rest, duplicates := request.duplicates + 1 })
    | .error .dataError => ({ db with nextId := db.nextId + 1 }, none)

/-! ### What is stored -/

variable {masters : ℤ → Option ExpectedIdentity} {accountId : ℤ}
  {revisions : List RevisionPayload} {request : IngestRequest}

lemma mem_kept (h : startIngest masters accountId revisions = .ok request) {p : PositionRevision}
    (hp : p ∈ request.kept) : ∃ r ∈ revisions, revisionFromPayload r = p := by
  unfold startIngest at h
  cases hmaster : masters accountId with
  | none => rw [hmaster] at h; cases h
  | some expected =>
    rw [hmaster] at h
    dsimp only at h
    split_ifs at h
    cases h
    obtain ⟨r, hr, rfl⟩ := List.mem_map.mp hp
    exact ⟨r, (List.mem_filter.mp hr).1, rfl⟩

lemma of_insertRevision {id : ℕ} {rows : List IngestedRevision} {p : PositionRevision}
    {row : IngestedRevision} (h : insertRevision id rows p = .ok row) :
    row.id = id ∧ row.revision = storeRevision p ∧
      ∀ old ∈ rows, old.revision.ticket = p.ticket → old.revision.revision ≠ p.revision := by
  unfold insertRevision at h
  split_ifs at h with hfits hdup
  cases h
  refine ⟨rfl, rfl, fun old hold hticket hrevision => hdup ?_⟩
  rw [List.any_eq_true]
  exact ⟨old, hold, by simp [hticket, hrevision]⟩

lemma ingestNext_rows (db : Rows) (request : IngestRequest) :
    ((ingestNext db request).1.rows = db.rows ∧
        ((ingestNext db request).1.nextId = db.nextId ∨
          (ingestNext db request).1.nextId = db.nextId + 1)) ∨
      ∃ p ∈ request.kept, ∃ row, insertRevision db.nextId db.rows p = .ok row ∧
        (ingestNext db request).1 = { rows := db.rows ++ [row], nextId := db.nextId + 1 } := by
  unfold ingestNext
  cases hkept : request.kept with
  | nil => exact .inl ⟨rfl, .inl rfl⟩
  | cons p rest =>
    dsimp only
    cases hins : insertRevision db.nextId db.rows p with
    | ok row => exact .inr ⟨p, List.mem_cons_self, row, hins, rfl⟩
    | error err => cases err <;> exact .inl ⟨rfl, .inr rfl⟩

lemma mem_ingestNext_kept {db : Rows} {request request' : IngestRequest}
    (h : (ingestNext db request).2 = some request') {p : PositionRevision}
    (hp : p ∈ request'.kept) : p ∈ request.kept := by
  unfold ingestNext at h
  cases hkept : request.kept with
  | nil => rw [hkept] at h; cases h
  | cons q rest =>
    rw [hkept] at h
    dsimp only at h
    cases hins : insertRevision db.nextId db.rows q with
    | ok row =>
      rw [hins] at h
      cases h
      exact List.mem_cons_of_mem q hp
    | error err =>
      rw [hins] at h
      cases err with
      | integrityError =>
        cases h
        exact List.mem_cons_of_mem q hp
      | dataError => cases h

def storedForm (p : Diff.ObservedPosition) : Diff.ObservedPosition :=
  storePosition
    { p with
      symbol := Text.clip 64 p.symbol
      side := Text.clip 8 p.side
      volume := storeVolume p.volume
      sl := numToDecimal p.sl
      tp := numToDecimal p.tp }

lemma toObservedPosition_stored (r : RevisionPayload) :
    ((storeRevision (revisionFromPayload r)).toObservedPosition).map storePosition =
      r.observed.map storedForm := by
  unfold RevisionPayload.observed PositionRevision.toObservedPosition
  cases hpos : r.position with
  | none => simp [storeRevision, revisionFromPayload, hpos]
  | some p => simp [storeRevision, revisionFromPayload, hpos, storedForm, Text.clip]

end IngestBatch
end GuvFX
