/-
# The audit chain of the agent

Every event of a slot is a row with the hash of the row before it and its own.  The verification goes
through the rows by their ids and follows the hashes from a fixed word on.

A row is found to be the wrong one by what follows it.  The rows at the end have nothing that follows
them, and neither the ids nor the number that stands for a mark of quarantine are in a hash.  So a
changed table passes exactly where its rows, up to these, begin those of the run.
-/
import Mathlib.Algebra.Order.Ring.Int
import Mathlib.Logic.Encodable.Basic
import Mathlib.Logic.Equiv.List
import GuvFX.Lib.HashChain
import GuvFX.Lib.Json
import GuvFX.Lib.Runs

namespace GuvFX
namespace AuditChain

open HashChain Runs

structure AuditEvent where
  event : String
  runtimeUuid : String
  slot : ℤ
  generation : ℤ
  occupancyId : String
  operation : Option String
  provisioningJobId : Option ℤ
  correlationId : Option String
  priorState : Option String
  resultingState : Option String
  integrityOutcome : Option String
  agentVersion : Option String
  manifestVersion : Option String
  protocolVersion : Option ℤ
  at_ : ℤ
  deriving DecidableEq

structure AuditRow extends AuditEvent where
  id : ℤ
  quarantined : ℤ
  previousAuditHash : String
  auditHash : String
  deriving DecidableEq

/-- The rows by their ids. -/
structure AuditTable where
  rows : List AuditRow
  sorted : rows.Pairwise (·.id < ·.id)

def auditEvents : List String :=
  ["slot_assigned", "materialise_started", "materialise_completed", "runtime_started",
    "verification_completed", "stop_requested", "stop_completed", "tombstone_completed",
    "slot_released", "integrity_mismatch", "slot_quarantined", "quarantine_cleared"]

def auditChainGenesis : String := "genesis"

def nullable {α : Type} (toJson : α → Json) : Option α → Json
  | some v => toJson v
  | none => .null

/-- What is hashed of a row, next to the hash before it. -/
def material (r : AuditEvent) (quarantined : Bool) : List (String × Json) :=
  [("event", .str r.event), ("runtime_uuid", .str r.runtimeUuid), ("slot", .int r.slot),
    ("generation", .int r.generation), ("occupancy_id", .str r.occupancyId),
    ("operation", nullable .str r.operation),
    ("provisioning_job_id", nullable .int r.provisioningJobId),
    ("correlation_id", nullable .str r.correlationId), ("prior_state", nullable .str r.priorState),
    ("resulting_state", nullable .str r.resultingState),
    ("integrity_outcome", nullable .str r.integrityOutcome), ("quarantined", .bool quarantined),
    ("agent_version", nullable .str r.agentVersion),
    ("manifest_version", nullable .str r.manifestVersion),
    ("protocol_version", nullable .int r.protocolVersion), ("at", .int r.at_)]

section Chain

variable (sha256 : List Char → String)

def chainHash (previousHash : String) (material : List (String × Json)) : String :=
  sha256 (previousHash.toList ++ '|' :: Json.dumps (.obj material))

def occupancyId (slot generation : ℤ) : String :=
  String.ofList ((sha256 s!"slot={slot}|generation={generation}".toList).toList.take 16)

structure RecordAudit where
  event : String
  runtimeUuid : String
  slot : Option ℤ
  generation : Option ℤ
  operation : Option String := some ""
  provisioningJobId : Option ℤ := none
  correlationId : Option String := some ""
  priorState : Option String := some ""
  resultingState : Option String := some ""
  integrityOutcome : Option String := some ""
  quarantined : Bool := false
  agentVersion : Option String := some ""
  manifestVersion : Option String := some ""
  protocolVersion : Option ℤ := none
  now : ℤ := 0

/-- The numbers of an event that the table can hold. -/
def AuditEvent.Storable (r : AuditEvent) : Prop :=
  ∀ n ∈ [r.slot, r.generation, r.at_] ++ r.provisioningJobId.toList ++ r.protocolVersion.toList,
    -2 ^ 63 ≤ n ∧ n < 2 ^ 63

instance (r : AuditEvent) : Decidable r.Storable := inferInstanceAs (Decidable (∀ n ∈ _, _))

def RecordAudit.checked (args : RecordAudit) : Except String AuditEvent :=
  if args.event ∉ auditEvents then .error s!"unknown audit event: {args.event}"
  else
    match args.slot, args.generation with
    | some slot, some generation =>
      let row : AuditEvent :=
        { args with slot, generation, occupancyId := occupancyId sha256 slot generation, at_ := args.now }
      if row.Storable then .ok row else .error "Python int too large to convert to SQLite INTEGER"
    | _, _ => .error "audit events require both slot and generation (occupancy identity)"

def AuditTable.nextRow (t : AuditTable) (r : AuditEvent) (quarantined : Bool) : AuditRow :=
  let prevHash := (t.rows.getLast?.map (·.auditHash)).getD auditChainGenesis
  { r with
    id := (t.rows.getLast?.map (·.id)).getD 0 + 1
    quarantined := if quarantined then 1 else 0
    previousAuditHash := prevHash
    auditHash := chainHash sha256 prevHash (material r quarantined) }

lemma AuditTable.sorted_nextRow (t : AuditTable) (r : AuditEvent) (quarantined : Bool) :
    (t.rows ++ [t.nextRow sha256 r quarantined]).Pairwise (·.id < ·.id) := by
  refine List.pairwise_append.mpr ⟨t.sorted, List.pairwise_singleton _ _, fun x hx y hy => ?_⟩
  obtain rfl := List.mem_singleton.mp hy
  obtain ⟨init, last, hrows⟩ :=
    (List.eq_nil_or_concat' t.rows).resolve_left (List.ne_nil_of_mem hx)
  have hle : x.id ≤ last.id := by
    have hsorted := t.sorted
    rw [hrows, List.pairwise_append] at hsorted
    rw [hrows] at hx
    rcases List.mem_append.mp hx with hx | hx
    · exact (hsorted.2.2 x hx last List.mem_cons_self).le
    · rw [List.mem_singleton.mp hx]
  simp only [nextRow, hrows, List.getLast?_concat, Option.map_some, Option.getD_some]
  omega

def AuditTable.recordAudit (t : AuditTable) (args : RecordAudit) : Except String AuditTable :=
  (args.checked sha256).map fun r =>
    ⟨t.rows ++ [t.nextRow sha256 r args.quarantined], t.sorted_nextRow sha256 r args.quarantined⟩

def step (t : AuditTable) (args : RecordAudit) : AuditTable :=
  (t.recordAudit sha256 args).toOption.getD t

def empty : AuditTable := ⟨[], List.Pairwise.nil⟩

/-- The rows, from the one on that has to have the hash `expectedPrev` before it. -/
def walk : String → List AuditRow → Except String Unit
  | _, [] => .ok ()
  | expectedPrev, r :: rs =>
    if r.previousAuditHash ≠ expectedPrev then .error s!"broken link at audit id {r.id}"
    else if chainHash sha256 r.previousAuditHash (material r.toAuditEvent (r.quarantined ≠ 0)) ≠
        r.auditHash then .error s!"content mismatch at audit id {r.id}"
    else walk r.auditHash rs

/-- The number of the records of a valid chain, or what is wrong with it. -/
def AuditTable.verifyAuditChain (t : AuditTable) : Except String ℕ :=
  (walk sha256 auditChainGenesis t.rows).map fun _ => t.rows.length

/-! ### Rows as entries of a chain -/

def AuditRow.entry (r : AuditRow) : Entry (AuditEvent × Bool) String :=
  ⟨(r.toAuditEvent, r.quarantined ≠ 0), r.previousAuditHash, r.auditHash⟩

def AuditTable.entries (t : AuditTable) : List (Entry (AuditEvent × Bool) String) := t.rows.map (·.entry)

def link (e : String) (m : AuditEvent × Bool) : String := chainHash sha256 e (material m.1 m.2)

/-- The rows of `t` are changed without computing hashes: one that has the hash of its content has
it from the table before. -/
def Unforged (before t : AuditTable) : Prop :=
  ∀ r ∈ t.entries, r.Sealed (link sha256) → r ∈ before.entries

variable {sha256} {t : AuditTable}

lemma walk_eq_ok_iff {e : String} {rows : List AuditRow} :
    walk sha256 e rows = .ok () ↔ Chained (link sha256) e (rows.map (·.entry)) := by
  induction rows generalizing e with
  | nil => simp [walk, Chained]
  | cons r rs ih =>
    rw [walk, List.map_cons, Chained, ← ih]
    split_ifs with hprevious hhash
    · exact iff_of_false nofun fun h => hprevious h.1
    · exact iff_of_false nofun fun h => hhash h.2.1
    · exact ⟨fun h => ⟨not_not.mp hprevious, not_not.mp hhash, h⟩, fun h => h.2.2⟩

lemma verifyAuditChain_eq_ok_iff :
    t.verifyAuditChain sha256 = .ok t.rows.length ↔
      Chained (link sha256) auditChainGenesis t.entries := by
  rw [AuditTable.entries, ← walk_eq_ok_iff, AuditTable.verifyAuditChain]
  cases walk sha256 auditChainGenesis t.rows <;> simp [Except.map]

lemma verifyAuditChain_eq_error_iff :
    (∃ detail, t.verifyAuditChain sha256 = .error detail) ↔
      ¬ Chained (link sha256) auditChainGenesis t.entries := by
  rw [AuditTable.entries, ← walk_eq_ok_iff, AuditTable.verifyAuditChain]
  cases walk sha256 auditChainGenesis t.rows <;> simp [Except.map]

lemma chained_step (t : AuditTable) (args : RecordAudit)
    (h : Chained (link sha256) auditChainGenesis t.entries) :
    Chained (link sha256) auditChainGenesis (step sha256 t args).entries := by
  cases hchecked : args.checked sha256 with
  | error e => simpa [step, AuditTable.recordAudit, hchecked, Except.map, Except.toOption] using h
  | ok r =>
    have hlast : (t.rows.getLast?.map (·.auditHash)).getD auditChainGenesis =
        lastHash auditChainGenesis t.entries := by
      rw [lastHash, AuditTable.entries, List.getLast?_map, Option.map_map]
      rfl
    have hentries : (step sha256 t args).entries = t.entries ++
        [(t.nextRow sha256 r args.quarantined).entry] := by
      simp [step, AuditTable.recordAudit, hchecked, Except.map, Except.toOption, AuditTable.entries]
    rw [hentries]
    convert h.concat (r, args.quarantined) using 3
    cases hq : args.quarantined <;>
      simp [AuditRow.entry, AuditTable.nextRow, hlast, link]

lemma nullable_injective {α : Type} {toJson : α → Json} (hinj : Function.Injective toJson)
    (hnull : ∀ a, toJson a ≠ .null) : Function.Injective (nullable toJson) := by
  rintro (_ | a) (_ | b) h
  · rfl
  · exact absurd h.symm (hnull b)
  · exact absurd h (hnull a)
  · exact congrArg some (hinj h)

lemma canon_nullable {α : Type} {toJson : α → Json} (h : ∀ a, Json.canon (toJson a) = toJson a)
    (v : Option α) : Json.canon (nullable toJson v) = nullable toJson v := by
  cases v with
  | none => rfl
  | some a => exact h a

lemma material_injective {r r' : AuditEvent} {q q' : Bool}
    (h : Json.dumps (.obj (material r q)) = Json.dumps (.obj (material r' q'))) :
    r = r' ∧ q = q' := by
  have hmembers := Json.canonMembers_eq (Json.canon_eq_of_dumps_eq h) (by simp [material]) rfl
  have hstr : Function.Injective (nullable Json.str) := nullable_injective (fun _ _ => Json.str.inj) nofun
  have hint : Function.Injective (nullable Json.int) := nullable_injective (fun _ _ => Json.int.inj) nofun
  have hcanonStr : ∀ v, Json.canon (nullable Json.str v) = nullable Json.str v :=
    canon_nullable fun _ => by rw [Json.canon]
  have hcanonInt : ∀ v, Json.canon (nullable Json.int v) = nullable Json.int v :=
    canon_nullable fun _ => by rw [Json.canon]
  cases r
  cases r'
  simp only [material, Json.canonMembers, Json.canon, hcanonStr, hcanonInt, List.cons.injEq,
    Prod.mk.injEq, true_and, Json.str.injEq, Json.int.injEq, Json.bool.injEq, hstr.eq_iff, hint.eq_iff,
    and_true] at hmembers
  simp [hmembers]

/-- What stands before the first of two bars is the same, and so is what follows. -/
lemma append_cons_inj {x : Char} {a a' b b' : List Char} (ha : x ∉ a) (ha' : x ∉ a')
    (h : a ++ x :: b = a' ++ x :: b') : a = a' ∧ b = b' := by
  rcases List.append_eq_append_iff.mp h with ⟨c, rfl, hc⟩ | ⟨c, rfl, hc⟩ <;> cases c with
  | nil => simpa [eq_comm] using hc
  | cons y c =>
    obtain ⟨rfl, -⟩ := List.cons.inj hc
    simp at ha ha'

/-- The characters of the text of a hash. -/
def isHexDigit (c : Char) : Bool := c.isDigit || ('a' ≤ c && c ≤ 'f')

lemma link_injective (hcollision : Function.Injective sha256) {e e' : String} (he : '|' ∉ e.toList) (he' : '|' ∉ e'.toList)
    {m m' : AuditEvent × Bool} (h : link sha256 e m = link sha256 e' m') : e = e' ∧ m = m' := by
  obtain ⟨hprevious, htext⟩ := append_cons_inj he he' (hcollision h)
  obtain ⟨hevent, hquarantined⟩ := material_injective htext
  exact ⟨String.toList_inj.mp hprevious, Prod.ext hevent hquarantined⟩

lemma notMem_hash (hhex : ∀ text, (sha256 text).toList.all isHexDigit) {c : Char}
    (hc : isHexDigit c = false) (text : List Char) : c ∉ (sha256 text).toList := by
  intro hmem
  rw [List.all_eq_true.mp (hhex text) c hmem] at hc
  cases hc

/-- In every run of records the chain is valid, and a table that has been changed without computing
hashes is reported exactly where its rows do not begin those of the run. -/
theorem reported_iff (hcollision : Function.Injective sha256)
    (hhex : ∀ text, (sha256 text).toList.all isHexDigit) (calls : List RecordAudit) :
    let before := run (step sha256) empty calls
    before.verifyAuditChain sha256 = .ok before.rows.length ∧
      ∀ t : AuditTable, Unforged sha256 before t →
        ((∃ detail, t.verifyAuditChain sha256 = .error detail) ↔ ¬ t.entries <+: before.entries) := by
  intro before
  have hchain : Chained (link sha256) auditChainGenesis before.entries :=
    run_invariant (P := fun t : AuditTable => Chained (link sha256) auditChainGenesis t.entries)
      chained_step (s := empty) trivial calls
  refine ⟨verifyAuditChain_eq_ok_iff.mpr hchain, fun t hunforged => ?_⟩
  rw [verifyAuditChain_eq_error_iff, not_iff_not]
  refine ⟨fun ht => ?_, hchain.of_prefix⟩
  refine hchain.prefix (S := {e | '|' ∉ e.toList}) ?_ ?_ ht ?_ ?_ fun r hr => ?_
  · exact fun _ _ _ => notMem_hash hhex (by decide) _
  · exact fun e he e' he' m m' h => link_injective hcollision he he' h
  · decide
  · -- the word at the beginning is not the text of a hash
    intro hmem
    obtain ⟨x, hx, heq⟩ := List.mem_map.mp hmem
    have hg : 'g' ∈ x.hash.toList := by rw [heq]; decide
    rw [← hchain.sealed hx] at hg
    exact notMem_hash hhex (by decide) _ hg
  · exact hunforged r hr (ht.sealed hr)

end Chain

def openHash (text : List Char) : String :=
  String.ofList (Nat.toDigits 10 (Encodable.encode (text.map Char.toNat)))

lemma openHash_injective : Function.Injective openHash := by
  intro text text' h
  have hcodes : text.map Char.toNat = text'.map Char.toNat :=
    Encodable.encode_injective (Json.toDigits_injective (String.ofList_injective h))
  have hchar : Function.Injective Char.toNat := fun _ _ => Char.toNat_inj.mp
  exact List.map_injective_iff.mpr hchar hcodes

lemma all_isHexDigit_openHash (text : List Char) : (openHash text).toList.all isHexDigit := by
  rw [openHash, String.toList_ofList, List.all_eq_true]
  intro c hc
  rw [isHexDigit, Nat.isDigit_of_mem_toDigits (by decide) (by decide) hc, Bool.true_or]

def assigned : RecordAudit where
  event := "slot_assigned"
  runtimeUuid := "runtime-a"
  slot := some 1
  generation := some 1

lemma unforged_empty (sha256 : List Char → String) (before : AuditTable) :
    Unforged sha256 before empty := fun _ hr => absurd hr List.not_mem_nil

lemma verifyAuditChain_empty (sha256 : List Char → String) : empty.verifyAuditChain sha256 = .ok 0 := rfl

lemma rows_assigned (sha256 : List Char → String) :
    empty.rows ≠ (run (step sha256) empty [assigned]).rows := by
  simp [step, AuditTable.recordAudit, RecordAudit.checked, assigned, auditEvents, AuditEvent.Storable,
    Except.map, Except.toOption, empty]

/-- An empty table is valid. -/
theorem reported_assigned : ¬ ∃ detail, empty.verifyAuditChain openHash = .error detail := by
  have hreported := (reported_iff openHash_injective all_isHexDigit_openHash [assigned]).2 empty
    (unforged_empty openHash _)
  rw [hreported, not_not]
  exact List.nil_prefix (l := (run (step openHash) empty [assigned]).entries)

/-- The last row can be deleted. -/
theorem not_reported : ¬ ∀ sha256 : List Char → String, Function.Injective sha256 →
    (∀ text, (sha256 text).toList.all isHexDigit) → ∀ calls t,
      t.rows ≠ (run (step sha256) empty calls).rows →
        Unforged sha256 (run (step sha256) empty calls) t →
          ∃ detail, t.verifyAuditChain sha256 = .error detail := by
  intro h
  obtain ⟨detail, hdetail⟩ := h openHash openHash_injective all_isHexDigit_openHash [assigned] empty
    (rows_assigned openHash) (unforged_empty openHash _)
  rw [verifyAuditChain_empty] at hdetail
  cases hdetail

end AuditChain
end GuvFX
