/-
# Polls and the fast path on one ledger

The polls of the observer, the transactions that ingest revisions, and the projection passes run
against one master in any order.  An ingest transaction takes the id of its row when it inserts it,
and the row becomes visible to the passes when the transaction commits, which may be after rows
with higher ids.  A row whose revision has been committed by another transaction in the meantime is
a duplicate and is dropped.
-/
import GuvFX.Lib.Runs
import GuvFX.TradeCopier.EventProjection

namespace GuvFX
namespace SharedLedger

open Observer Revisions EventProjection Runs
open Reconcile (MasterReadResult)

/-- The master, the ingested rows, and the transactions that are under way. -/
structure State where
  master : Master
  committed : List IngestedRevision
  /-- The rows of the transactions that are open. -/
  inFlight : List IngestedRevision
  nextId : ℕ
  /-- The rows that some pass has folded. -/
  folded : List IngestedRevision

/-- A master before anything has happened. -/
def init : State :=
  { master := Master.new, committed := [], inFlight := [], nextId := 1, folded := [] }

/-- The steps of the fast path. -/
inductive IngestAction where
  | insert (r : PositionRevision)
  | commit (id : ℕ)
  | abort (id : ℕ)
  | project (now : Time)

/-- The steps of the whole system. -/
inductive Action where
  /-- The observation lease is claimed, released or taken over. -/
  | lease (token : String) (leaseUntil : Option Time)
  | record (now : Time) (result : MasterReadResult) (leaseToken : Option String)
  | ingest (a : IngestAction)

def sameRevision (row row' : IngestedRevision) : Bool :=
  row.revision.ticket = row'.revision.ticket ∧ row.revision.revision = row'.revision.revision

def ingestStep (s : State) : IngestAction → State
  | .insert r =>
    if r.structurallyValid then
      -- the id is taken even if the insertion fails
      match insertRevision s.nextId s.committed r with
      | .ok row => { s with inFlight := s.inFlight ++ [row], nextId := s.nextId + 1 }
      | .error _ => { s with nextId := s.nextId + 1 }
    else s
  | .commit id =>
    match s.inFlight.find? fun row => row.id = id with
    | none => s
    | some row =>
      let rest := s.inFlight.filter fun row => row.id ≠ id
      if s.committed.any (sameRevision row) then { s with inFlight := rest }
      else { s with committed := s.committed ++ [row], inFlight := rest }
  | .abort id => { s with inFlight := s.inFlight.filter fun row => row.id ≠ id }
  | .project now =>
    match projectMasterEvents now s.committed s.master with
    | .error _ => s
    | .ok (m, _) =>
      { s with
        master := m
        folded := s.folded ++ newRows s.master.lastProjectedIngestId s.committed }

def step (s : State) : Action → State
  | .lease token leaseUntil =>
    { s with
      master := { s.master with
        observationLeaseToken := token, observationLeaseUntil := leaseUntil } }
  | .record now result leaseToken =>
    match recordObservation now result leaseToken s.master with
    | .ok (m, _) => { s with master := m }
    | .error _ => s
  | .ingest a => ingestStep s a

/-! ### What a step of the fast path does -/

variable {s : State}

/-- What happens to the rows: nothing that a pass can see, or one row becomes visible. -/
lemma ingestStep_committed (s : State) (a : IngestAction) :
    (ingestStep s a).committed = s.committed ∨
      ∃ id row, a = .commit id ∧ s.inFlight.find? (fun row => row.id = id) = some row ∧
        s.committed.any (sameRevision row) = false ∧
        (ingestStep s a).committed = s.committed ++ [row] ∧
        (ingestStep s a).master = s.master ∧ (ingestStep s a).folded = s.folded := by
  cases a with
  | insert r =>
    simp only [ingestStep]
    split_ifs
    · split <;> exact Or.inl rfl
    · exact Or.inl rfl
  | commit id =>
    cases hfind : s.inFlight.find? fun row => row.id = id with
    | none => exact Or.inl (by simp [ingestStep, hfind])
    | some row =>
      cases hdup : s.committed.any (sameRevision row) with
      | true => exact Or.inl (by simp [ingestStep, hfind, hdup])
      | false => exact Or.inr ⟨id, row, rfl, hfind, hdup, by simp [ingestStep, hfind, hdup]⟩
  | abort id => exact Or.inl rfl
  | project now =>
    simp only [ingestStep]
    split <;> exact Or.inl rfl

lemma ingestStep_project (s : State) (now : Time) :
    (newRows s.master.lastProjectedIngestId s.committed = [] ∧
        ingestStep s (.project now) = s) ∨
      (newRows s.master.lastProjectedIngestId s.committed ≠ [] ∧
        ∃ poll, storeSnapshot now (passOverlay s.committed s.master) = .ok poll ∧
          ingestStep s (.project now) =
            { s with
              master := projectedMaster now s.committed poll s.master
              folded := s.folded ++ newRows s.master.lastProjectedIngestId s.committed }) := by
  rcases projectMasterEvents_cases now s.committed s.master with
    ⟨hnew, outcome, hres⟩ | ⟨hnew, poll, outcome, hpoll, hres⟩
  · exact Or.inl ⟨hnew, by simp [ingestStep, hres, hnew]⟩
  · exact Or.inr ⟨hnew, poll, hpoll, by simp [ingestStep, hres]⟩

lemma distinctRevisions_nil : DistinctRevisions [] := by
  intro a ha
  cases ha

lemma distinctRevisions_concat {rows : List IngestedRevision} {row : IngestedRevision}
    (h : DistinctRevisions rows) (hdup : rows.any (sameRevision row) = false) :
    DistinctRevisions (rows ++ [row]) := by
  have hno : ∀ a ∈ rows, row.revision.ticket = a.revision.ticket →
      row.revision.revision ≠ a.revision.revision := by
    simpa [sameRevision] using hdup
  intro a ha b hb hticket hrevision
  rcases List.mem_append.mp ha with holda | hnewa <;>
    rcases List.mem_append.mp hb with holdb | hnewb
  · exact h a holda b holdb hticket hrevision
  · obtain rfl := List.mem_singleton.mp hnewb
    exact absurd hrevision.symm (hno a holda hticket.symm)
  · obtain rfl := List.mem_singleton.mp hnewa
    exact absurd hrevision (hno b holdb hticket)
  · rw [List.mem_singleton.mp hnewa, List.mem_singleton.mp hnewb]

lemma distinctRevisions_ingestStep (s : State) (a : IngestAction)
    (h : DistinctRevisions s.committed) : DistinctRevisions (ingestStep s a).committed := by
  rcases ingestStep_committed s a with hsame | ⟨id, row, -, -, hdup, hrows, -⟩
  · rw [hsame]
    exact h
  · rw [hrows]
    exact distinctRevisions_concat h hdup

lemma distinctRevisions_step (s : State) (a : Action) (h : DistinctRevisions s.committed) :
    DistinctRevisions (step s a).committed := by
  cases a with
  | lease token leaseUntil => exact h
  | record now result leaseToken =>
    simp only [step]
    split <;> exact h
  | ingest a => exact distinctRevisions_ingestStep s a h

end SharedLedger
end GuvFX
