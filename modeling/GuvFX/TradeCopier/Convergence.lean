/-
# From the emitter to the projection

The emitter, the ingestion and the projection passes work on their own: envelopes arrive in any
order, more than once or never, a request may die between two of its revisions, and passes may run
in between, each over the rows that are there.  What a pass over all rows leaves of a ticket is the
newest revision that the emitter has assigned to it, provided that this one has been stored; all
the older ones do not matter.
-/
import GuvFX.TradeCopier.IngestBatch

namespace GuvFX
namespace Convergence

open Diff Emitter EventProjection IngestBatch Ingestion Observer Relation Revisions Runs

/-! ### The system -/

structure State where
  emitter : Emitter.State
  /-- The batches whose sending was acknowledged. -/
  acked : List (List RevisionPayload)
  db : IngestBatch.Rows
  requests : ℕ → Option IngestRequest
  master : Master

/-- Nothing has been observed, and the projection works from events alone. -/
def init : State where
  emitter := Emitter.init
  acked := []
  db := { rows := [], nextId := 1 }
  requests := fun _ => none
  master := Master.new

inductive Action where
  | emit (a : Emitter.Action)
  /-- The request `q` receives the envelope that was sent as number `i`, and it is verified. -/
  | deliver (q i : ℕ)
  /-- A request stores its next revision. -/
  | ingest (q : ℕ)
  | fail (q : ℕ)
  | project (now : Time)

def startRequest (masters : ℤ → Option ExpectedIdentity) (e : Envelope (List RevisionPayload)) :
    Option IngestRequest :=
  match e.signed.bind (·.accountId), e.payload with
  | some accountId, some revisions => (startIngest masters accountId revisions).toOption
  | _, _ => none

def step (crypto : Crypto (List RevisionPayload)) (cfg : Config)
    (masters : ℤ → Option ExpectedIdentity) (s : State) : Action → State
  | .emit a =>
    { s with
      emitter := Emitter.step crypto cfg s.emitter a
      acked := s.acked ++ acknowledged s.emitter a }
  | .deliver q i =>
    match s.requests q, s.emitter.sent[i]? with
    | none, some e => { s with requests := Function.update s.requests q (startRequest masters e) }
    | _, _ => s
  | .ingest q =>
    match s.requests q with
    | none => s
    | some request =>
      let (db, rest) := ingestNext s.db request
      { s with db, requests := Function.update s.requests q rest }
  | .fail q => { s with requests := Function.update s.requests q none }
  | .project now =>
    match projectMasterEvents now s.db.rows s.master with
    | .ok (master, _) => { s with master }
    | .error _ => s

/-! ### The newest consumed row of a ticket -/

/-- The rows that the passes have consumed decide the baseline: a ticket without one is absent, and
if the row with the highest number is well formed, the ticket is what this row describes. -/
structure TopProjected (rows : List IngestedRevision) (m : Master) : Prop where
  absent : ∀ t, (∀ row ∈ rows, row.id ≤ m.lastProjectedIngestId → row.revision.ticket ≠ t) →
    index (baselineOf m) t = none
  top : ∀ row ∈ rows, row.id ≤ m.lastProjectedIngestId → row.revision.structurallyValid = true →
    (∀ old ∈ rows, old.id ≤ m.lastProjectedIngestId →
      old.revision.ticket = row.revision.ticket → old.revision.revision ≤ row.revision.revision) →
    index (baselineOf m) row.revision.ticket = row.revision.toObservedPosition.map storePosition

variable {rows : List IngestedRevision} {m : Master} {row : IngestedRevision} {now : Time}

lemma topProjected_new : TopProjected [] Master.new where
  absent _ _ := rfl
  top _ h := nomatch h

lemma TopProjected.concat (h : TopProjected rows m) (hid : m.lastProjectedIngestId < row.id) :
    TopProjected (rows ++ [row]) m where
  absent t ht := h.absent t fun old hold => ht old (List.mem_append_left _ hold)
  top row' hrow' hid' hvalid hmax := by
    rcases List.mem_append.mp hrow' with hold | hnew
    · exact h.top row' hold hid' hvalid fun old hold' => hmax old (List.mem_append_left _ hold')
    · rw [List.mem_singleton.mp hnew] at hid'
      omega

lemma TopProjected.project (h : TopProjected rows m) (hdistinct : DistinctRevisions rows)
    {poll : Poll} (hpoll : storeSnapshot now (passOverlay rows m) = .ok poll)
    (hnew : newRows m.lastProjectedIngestId rows ≠ []) :
    TopProjected rows (projectedMaster now rows poll m) := by
  have hall : ∀ row ∈ rows,
      row.id ≤ (projectedMaster now rows poll m).lastProjectedIngestId := fun row hrow =>
    id_le_projected now poll hnew hrow
  constructor
  · intro t ht
    have hwin : passWinners m.lastProjectedIngestId rows t = none := by
      rw [Option.eq_none_iff_forall_not_mem]
      intro r hr
      obtain ⟨-, hticket, row, hrow, -, rfl⟩ := of_passWinners hr
      exact ht row hrow (hall row hrow) hticket
    have hold : index (baselineOf m) t = none :=
      h.absent t fun row hrow _ => ht row hrow (hall row hrow)
    rw [index_projected hpoll, overlayAt_of_none hwin, hold]
    rfl
  · intro row hrow _ hvalid hmax
    have hmax' : ∀ old ∈ rows, old.revision.ticket = row.revision.ticket →
        old.revision.revision ≤ row.revision.revision := fun old hold =>
      hmax old hold (hall old hold)
    rcases Nat.lt_or_ge m.lastProjectedIngestId row.id with hid | hid
    · -- a new row is applied by this pass
      have happlies : Applies m.lastProjectedIngestId rows row.revision := by
        refine ⟨⟨row, hrow, hid, rfl⟩, hvalid, fun row' hrow' _ ht _ => hmax' row' hrow' ht, ?_⟩
        intro old hold holdid hticket
        refine lt_of_le_of_ne (hmax' old hold hticket) fun heq => ?_
        rw [hdistinct old hold row hrow hticket heq] at holdid
        omega
      rw [index_projected hpoll, overlayAt_of_some ((applies_iff hdistinct).mp happlies)]
    · -- after an old one every new one of its ticket is stale
      have hwin : passWinners m.lastProjectedIngestId rows row.revision.ticket = none := by
        rw [Option.eq_none_iff_forall_not_mem]
        intro r hr
        obtain ⟨-, hticket, row', hrow', -, rfl⟩ := of_passWinners hr
        have happlies : Applies m.lastProjectedIngestId rows row'.revision :=
          (applies_iff hdistinct).mpr (by rw [hticket]; exact hr)
        have hlt := happlies.above row hrow hid hticket.symm
        have hle := hmax' row' hrow' hticket
        omega
      have hold := h.top row hrow hid hvalid fun old hold _ => hmax' old hold
      rw [index_projected hpoll, overlayAt_of_none hwin, hold]
      cases hobs : row.revision.toObservedPosition with
      | none => rfl
      | some p => exact congrArg some (storePosition_of_row hobs)

/-! ### The invariant -/

/-- The rows are revisions that the emitter has assigned, each once. -/
structure Inv (cfg : Config) (s : State) : Prop where
  emitter : Emitter.Inv cfg s.emitter
  follows : Follows s.emitter
  accounted : Accounted s.acked s.emitter
  kept : ∀ q request, s.requests q = some request → ∀ p ∈ request.kept,
    ∃ r ∈ s.emitter.assigned, revisionFromPayload r = p
  rows : ∀ row ∈ s.db.rows, ∃ r ∈ s.emitter.assigned,
    row.revision = storeRevision (revisionFromPayload r)
  distinct : DistinctRevisions s.db.rows
  ids : ∀ row ∈ s.db.rows, row.id < s.db.nextId
  watermark : s.master.lastProjectedIngestId < s.db.nextId
  projected : TopProjected s.db.rows s.master

variable {crypto : Crypto (List RevisionPayload)} {cfg : Config}
  {masters : ℤ → Option ExpectedIdentity} {s : State}

lemma inv_init (cfg : Config) : Inv cfg init where
  emitter := Emitter.inv_init cfg
  follows := follows_init
  accounted := accounted_init
  kept _ _ h := nomatch h
  rows _ h := nomatch h
  distinct := by intro a ha; cases ha
  ids _ h := nomatch h
  watermark := Nat.zero_lt_one
  projected := topProjected_new

lemma assigned_subset_step (crypto : Crypto (List RevisionPayload)) (cfg : Config)
    (e : Emitter.State) (a : Emitter.Action) :
    e.assigned ⊆ (Emitter.step crypto cfg e a).assigned := by
  intro r hr
  cases a with
  | observe now batchId positions =>
    dsimp only [Emitter.step]
    cases e.flush with
    | some f => exact hr
    | none =>
      obtain ⟨b, hb, hrb⟩ := List.mem_flatten.mp hr
      exact List.mem_flatten.mpr ⟨b, List.mem_append_left _ hb, hrb⟩
  | beginFlush secret =>
    dsimp only [Emitter.step]
    cases e.flush with
    | some f => exact hr
    | none => dsimp only; split_ifs <;> exact hr
  | send nonce now ok =>
    dsimp only [Emitter.step]
    cases e.flush with
    | none => exact hr
    | some f => dsimp only; cases f.todo <;> exact hr
  | saveFlush =>
    dsimp only [Emitter.step]
    cases e.flush with
    | none => exact hr
    | some f => dsimp only; cases f.todo <;> exact hr
  | crash => exact hr

lemma Inv.kept_startRequest (h : Inv cfg s) {i : ℕ} {e : Envelope (List RevisionPayload)}
    (he : s.emitter.sent[i]? = some e) {request : IngestRequest}
    (hstart : startRequest masters e = some request) {p : PositionRevision}
    (hp : p ∈ request.kept) : ∃ r ∈ s.emitter.assigned, revisionFromPayload r = p := by
  obtain ⟨revisions, hmem, hpayload⟩ := h.emitter.sent e (List.mem_of_getElem? he)
  unfold startRequest at hstart
  rw [hpayload] at hstart
  cases haccount : e.signed.bind (·.accountId) with
  | none => rw [haccount] at hstart; cases hstart
  | some accountId =>
    rw [haccount] at hstart
    dsimp only at hstart
    cases hingest : startIngest masters accountId revisions with
    | error err => rw [hingest] at hstart; cases hstart
    | ok request' =>
      rw [hingest] at hstart
      cases hstart
      obtain ⟨r, hr, hrp⟩ := mem_kept hingest hp
      exact ⟨r, List.mem_flatten.mpr ⟨revisions, hmem, hr⟩, hrp⟩

lemma Inv.kept_update (h : Inv cfg s) (q : ℕ) (next : Option IngestRequest)
    (hnext : ∀ request, next = some request → ∀ p ∈ request.kept,
      ∃ r ∈ s.emitter.assigned, revisionFromPayload r = p) :
    ∀ q' request, Function.update s.requests q next q' = some request → ∀ p ∈ request.kept,
      ∃ r ∈ s.emitter.assigned, revisionFromPayload r = p := by
  intro q' request hq' p hp
  by_cases hsame : q' = q
  · rw [hsame, Function.update_self] at hq'
    exact hnext request hq' p hp
  · rw [Function.update_of_ne hsame] at hq'
    exact h.kept q' request hq' p hp

lemma Inv.ingest (h : Inv cfg s) {q : ℕ} {request : IngestRequest}
    (hq : s.requests q = some request) :
    Inv cfg { s with
      db := (ingestNext s.db request).1
      requests := Function.update s.requests q (ingestNext s.db request).2 } := by
  have hkept := h.kept_update q (ingestNext s.db request).2 fun request' hrequest' p hp =>
    h.kept q request hq p (mem_ingestNext_kept hrequest' hp)
  rcases ingestNext_rows s.db request with ⟨hrows, hnext⟩ | ⟨p, hp, row, hins, hdb⟩
  · have hle : s.db.nextId ≤ (ingestNext s.db request).1.nextId := by omega
    refine
      { h with
        kept := hkept
        rows := ?_
        distinct := ?_
        ids := ?_
        watermark := ?_
        projected := ?_ }
    · rw [hrows]; exact h.rows
    · rw [hrows]; exact h.distinct
    · rw [hrows]; exact fun row hrow => (h.ids row hrow).trans_le hle
    · exact h.watermark.trans_le hle
    · rw [hrows]; exact h.projected
  · obtain ⟨hid, hrevision, hno⟩ := of_insertRevision hins
    obtain ⟨r, hr, rfl⟩ := h.kept q request hq p hp
    refine
      { h with
        kept := hkept
        rows := ?_
        distinct := ?_
        ids := ?_
        watermark := ?_
        projected := ?_ }
    all_goals rw [hdb]
    · intro row' hrow'
      rcases List.mem_append.mp hrow' with hold | hnew
      · exact h.rows row' hold
      · rw [List.mem_singleton.mp hnew]
        exact ⟨r, hr, hrevision⟩
    · intro a ha b hb hticket hnumber
      rcases List.mem_append.mp ha with ha | ha
      · rcases List.mem_append.mp hb with hb | hb
        · exact h.distinct a ha b hb hticket hnumber
        · rw [List.mem_singleton.mp hb, hrevision] at hticket hnumber
          exact absurd hnumber (hno a ha hticket)
      · rcases List.mem_append.mp hb with hb | hb
        · rw [List.mem_singleton.mp ha, hrevision] at hticket hnumber
          exact absurd hnumber.symm (hno b hb hticket.symm)
        · rw [List.mem_singleton.mp ha, List.mem_singleton.mp hb]
    · intro row' hrow'
      rcases List.mem_append.mp hrow' with hold | hnew
      · exact (h.ids row' hold).trans (Nat.lt_succ_self _)
      · rw [List.mem_singleton.mp hnew, hid]
        exact Nat.lt_succ_self _
    · exact h.watermark.trans (Nat.lt_succ_self _)
    · exact h.projected.concat (by rw [hid]; exact h.watermark)

lemma step_project (crypto : Crypto (List RevisionPayload)) (cfg : Config)
    (masters : ℤ → Option ExpectedIdentity) (s : State) (now : Time) :
    (newRows s.master.lastProjectedIngestId s.db.rows = [] ∧
        step crypto cfg masters s (.project now) = s) ∨
      (newRows s.master.lastProjectedIngestId s.db.rows ≠ [] ∧
        ∃ poll, storeSnapshot now (passOverlay s.db.rows s.master) = .ok poll ∧
          step crypto cfg masters s (.project now) =
            { s with master := projectedMaster now s.db.rows poll s.master }) := by
  rcases projectMasterEvents_cases now s.db.rows s.master with
    ⟨hnew, outcome, hres⟩ | ⟨hnew, poll, outcome, hpoll, hres⟩
  · exact .inl ⟨hnew, by simp only [step, hres]⟩
  · exact .inr ⟨hnew, poll, hpoll, by simp only [step, hres]⟩

theorem inv_step (h : Inv cfg s) (a : Action) : Inv cfg (step crypto cfg masters s a) := by
  cases a with
  | emit a =>
    have hsub := assigned_subset_step crypto cfg s.emitter a
    refine
      { h with
        emitter := Emitter.inv_step h.emitter a
        follows := follows_step h.emitter h.follows a
        accounted := accounted_step h.accounted a
        kept := fun q request hq p hp => ?_
        rows := fun row hrow => ?_ }
    · obtain ⟨r, hr, hrp⟩ := h.kept q request hq p hp
      exact ⟨r, hsub hr, hrp⟩
    · obtain ⟨r, hr, hrow⟩ := h.rows row hrow
      exact ⟨r, hsub hr, hrow⟩
  | deliver q i =>
    dsimp only [step]
    cases hq : s.requests q with
    | some request => exact h
    | none =>
      cases he : s.emitter.sent[i]? with
      | none => exact h
      | some e =>
        have hkept := h.kept_update q (startRequest masters e) fun request hstart p hp =>
          h.kept_startRequest he hstart hp
        exact { h with kept := hkept }
  | ingest q =>
    dsimp only [step]
    cases hq : s.requests q with
    | none => exact h
    | some request => exact h.ingest hq
  | fail q =>
    have hkept := h.kept_update q none fun request hnone => nomatch hnone
    exact { h with kept := hkept }
  | project now =>
    rcases step_project crypto cfg masters s now with
      ⟨-, hsame⟩ | ⟨hnew, poll, hpoll, hstep⟩
    · rw [hsame]; exact h
    · rw [hstep]
      refine { h with watermark := ?_, projected := h.projected.project h.distinct hpoll hnew }
      refine projected_lt now poll (Nat.zero_lt_of_lt h.watermark) fun row hrow => ?_
      exact h.ids row (mem_newRows.mp hrow).1

/-! ### Convergence -/

def projectedPosition (s : State) (t : ℤ) : Option ObservedPosition := index (baselineOf s.master) t

def lastSnapshot (s : State) (t : ℤ) : Option ObservedPosition :=
  index s.emitter.spool.lastSnapshot t

def Stored (s : State) (r : RevisionPayload) : Prop :=
  ∃ row ∈ s.db.rows, row.revision = storeRevision (revisionFromPayload r) ∧
    row.revision.structurallyValid = true

instance (s : State) (r : RevisionPayload) : Decidable (Stored s r) :=
  inferInstanceAs (Decidable (∃ row ∈ s.db.rows, _ ∧ _))

/-- Every assigned revision of a ticket is stored, or superseded by one of the ticket that is. -/
def Delivered (s : State) (t : ℤ) : Prop :=
  ∀ r ∈ s.emitter.assigned, r.ticket = t →
    ∃ r' ∈ s.emitter.assigned, r'.ticket = t ∧ r.revision ≤ r'.revision ∧ Stored s r'

instance (s : State) (t : ℤ) : Decidable (Delivered s t) :=
  inferInstanceAs (Decidable (∀ r ∈ s.emitter.assigned, _ → ∃ r' ∈ s.emitter.assigned, _ ∧ _ ∧ _))

/-- The projection shows of a ticket the newest revision, as its columns hold it.  The last
observation has been reached from that revision by changes that are too small to be emitted, and
holds the ticket exactly when the projection does. -/
structure Converged (s : State) (t : ℤ) : Prop where
  projected : projectedPosition s t = (emitted s.emitter.assigned t).map storedForm
  followed : ReflTransGen Unseen (emitted s.emitter.assigned t) (lastSnapshot s t)
  present : (projectedPosition s t).isSome = (lastSnapshot s t).isSome

lemma Inv.stored_newest (h : Inv cfg s) {t : ℤ} {r : RevisionPayload}
    (hnewest : newestAssigned s.emitter.assigned t = some r) (hdelivered : Delivered s t) :
    Stored s r := by
  obtain ⟨hr, hticket⟩ := of_newestAssigned hnewest
  obtain ⟨r', hr', hticket', hle, hstored⟩ := hdelivered r hr hticket
  have hge : r'.revision ≤ r.revision :=
    le_newestAssigned h.emitter.increasing hnewest hr' hticket'
  obtain ⟨b, hb, hrb⟩ := List.mem_flatten.mp hr
  obtain ⟨b', hb', hrb'⟩ := List.mem_flatten.mp hr'
  obtain ⟨-, rfl⟩ := eq_of_sameRevision h.emitter.increasing hb hb' hrb hrb'
    (hticket.trans hticket'.symm) (Nat.le_antisymm hle hge)
  exact hstored

lemma Inv.projectedPosition_eq (h : Inv cfg s)
    (hconsumed : ∀ row ∈ s.db.rows, row.id ≤ s.master.lastProjectedIngestId) {t : ℤ}
    (hdelivered : Delivered s t) :
    projectedPosition s t = (emitted s.emitter.assigned t).map storedForm := by
  unfold emitted
  cases hnewest : newestAssigned s.emitter.assigned t with
  | none =>
    -- no revision of the ticket, so that it has no row
    refine h.projected.absent t fun row hrow _ hticket => ?_
    obtain ⟨r, hr, hrev⟩ := h.rows row hrow
    rw [hrev] at hticket
    exact newestAssigned_eq_none_iff.mp hnewest r hr hticket
  | some r =>
    obtain ⟨row, hrow, hrev, hvalid⟩ := h.stored_newest hnewest hdelivered
    obtain ⟨-, rfl⟩ := of_newestAssigned hnewest
    have htop := h.projected.top row hrow (hconsumed row hrow) hvalid fun old hold _ hticket => by
      obtain ⟨r', hr', hrev'⟩ := h.rows old hold
      rw [hrev, hrev'] at hticket ⊢
      exact Int.ofNat_le.mpr (le_newestAssigned h.emitter.increasing hnewest hr' hticket)
    rw [hrev, toObservedPosition_stored] at htop
    exact htop

theorem Inv.converged (h : Inv cfg s)
    (hconsumed : ∀ row ∈ s.db.rows, row.id ≤ s.master.lastProjectedIngestId) {t : ℤ}
    (hdelivered : Delivered s t) : Converged s t := by
  have hprojected := h.projectedPosition_eq hconsumed hdelivered
  refine ⟨hprojected, h.follows t, ?_⟩
  rw [hprojected, Option.isSome_map]
  exact isSome_eq_of_unseen (h.follows t)

/-- A pass leaves no row that has not been consumed. -/
lemma id_le_step_project (crypto : Crypto (List RevisionPayload)) (cfg : Config)
    (masters : ℤ → Option ExpectedIdentity) (s : State) (now : Time) :
    ∀ row ∈ (step crypto cfg masters s (.project now)).db.rows,
      row.id ≤ (step crypto cfg masters s (.project now)).master.lastProjectedIngestId := by
  rcases step_project crypto cfg masters s now with ⟨hnew, hsame⟩ | ⟨hnew, poll, -, hstep⟩
  · rw [hsame]
    exact newRows_eq_nil_iff.mp hnew
  · rw [hstep]
    exact fun row hrow => id_le_projected now poll hnew hrow

/-- **Convergence.**  Whatever is observed, whichever batches are sent, lost, sent again or
delivered in another order, and wherever requests and passes run in between: after a pass over all
rows, each ticket whose revisions are stored or superseded shows the emitter's newest revision of
it.  As long as no batch is counted as dropped, each one has been acknowledged or is queued. -/
theorem converges (crypto : Crypto (List RevisionPayload)) (cfg : Config)
    (masters : ℤ → Option ExpectedIdentity) (as : List Action) (now : Time) :
    let s := run (step crypto cfg masters) init (as ++ [.project now])
    (∀ t, Delivered s t → Converged s t) ∧
      (s.emitter.spool.dropped = 0 → ∀ b ∈ s.emitter.batches, b ≠ [] →
        b ∈ s.acked ∨ ∃ q ∈ s.emitter.spool.pending, q.revisions = b) := by
  intro s
  have h : Inv cfg s :=
    run_invariant (P := Inv cfg) (fun _ a h => inv_step h a) (inv_init cfg) (as ++ [.project now])
  have hconsumed : ∀ row ∈ s.db.rows, row.id ≤ s.master.lastProjectedIngestId := by
    rw [show s = step crypto cfg masters (run (step crypto cfg masters) init as) (.project now) from
      run_concat _ as _]
    exact id_le_step_project crypto cfg masters _ now
  exact ⟨fun t hdelivered => h.converged hconsumed hdelivered, h.accounted.saved⟩

/-! ### A request that is not interrupted -/

/-! ### A batch that is dropped -/

/-- The emitter has nothing to send, and the control plane knows nothing. -/
structure Lost (positions : List ObservedMasterPosition) (s : State) : Prop where
  silent : Silent positions s.emitter
  requests : ∀ q, s.requests q = none
  rows : s.db.rows = []
  absent : ∀ t, projectedPosition s t = none

def SeenAgain (positions : List ObservedMasterPosition) : Action → Prop
  | .emit a => ShowsAgain positions a
  | _ => True

theorem lost_step {positions : List ObservedMasterPosition} (h : Lost positions s) {a : Action}
    (ha : SeenAgain positions a) : Lost positions (step crypto cfg masters s a) := by
  cases a with
  | emit a => exact { h with silent := silent_step h.silent ha }
  | deliver q i =>
    have hsent : s.emitter.sent[i]? = none := by rw [h.silent.sent]; rfl
    simp only [step, h.requests q, hsent]
    exact h
  | ingest q =>
    simp only [step, h.requests q]
    exact h
  | fail q =>
    refine { h with requests := fun q' => ?_ }
    dsimp only [step]
    rw [show s.requests = fun _ => none from funext h.requests, Function.update_eq_self]
  | project now =>
    have hnew : newRows s.master.lastProjectedIngestId s.db.rows = [] := by
      rw [h.rows]
      rfl
    rcases step_project crypto cfg masters s now with ⟨-, hsame⟩ | ⟨hne, -⟩
    · rw [hsame]
      exact h
    · exact absurd hnew hne

/-! ### Two runs that do not agree -/

def sampleMasters : ℤ → Option ExpectedIdentity := fun accountId =>
  if accountId = 1 then some { login := some "1001", server := some "Alpha-Live" } else none

/-- A position is told, and then its volume changes by less than the tolerance. -/
def drifting : List Action :=
  [.emit (.observe 10 "b" [samplePosition 7 1]), .emit (.beginFlush "key"),
    .emit (.send "n" 11 true), .emit .saveFlush, .deliver 0 0, .ingest 0,
    .emit (.observe 20 "c" [samplePosition 7 (1004 / 1000)])]

def drifted : State :=
  run (step sampleCrypto sampleConfig sampleMasters) init (drifting ++ [.project 30])

/-- The ticket converges, and the control plane has one lot of it. -/
theorem converges_drifted : Converged drifted 7 ∧
    (projectedPosition drifted 7).map (·.volume) = some 1 :=
  ⟨(converges sampleCrypto sampleConfig sampleMasters drifting 30).1 7 (by decide +kernel),
    by decide +kernel⟩

/-- A position is observed, the queue takes no batch, and then `as` happens. -/
def dropped (as : List Action) : State :=
  run (step sampleCrypto { sampleConfig with maxPending := 0 } sampleMasters) init
    (.emit (.observe 10 "b" [samplePosition 7 1]) :: as)

/-- After all revisions were stored, the projection need not be the last observation; and after a
batch was dropped, a ticket may never be shown, however often its position is observed again. -/
theorem not_converges :
    ((∀ r ∈ drifted.emitter.assigned, Stored drifted r) ∧
        (projectedPosition drifted 7).map (·.volume) = some 1 ∧
        (lastSnapshot drifted 7).map (·.volume) = some (1004 / 1000)) ∧
      ∀ as, (∀ a ∈ as, SeenAgain [samplePosition 7 1] a) →
        projectedPosition (dropped as) 7 = none ∧
          (lastSnapshot (dropped as) 7).map (·.volume) = some 1 := by
  refine ⟨by decide +kernel, fun as has => ?_⟩
  have hstart : Lost [samplePosition 7 1] (dropped []) :=
    { silent :=
        { observed := by decide +kernel
          pending := by decide +kernel
          flushing := fun _ hf => nomatch hf
          sent := by decide +kernel }
      requests := fun _ => rfl
      rows := rfl
      absent := fun _ => rfl }
  have hlost : Lost [samplePosition 7 1] (dropped as) :=
    run_invariant_of_meets (P := Lost [samplePosition 7 1])
      (fun _ _ h ha => lost_step h ha) hstart (stepsMeet_of_forall_mem has)
  refine ⟨hlost.absent 7, ?_⟩
  rw [lastSnapshot, hlost.silent.observed]
  decide +kernel

end Convergence
end GuvFX
