/-
# The emitter of a master

On the host of a master, the emitter compares each observation with the one before, gives every
changed ticket its next revision number, and puts the revisions into a durable queue as one batch.
A flush sends the queued batches; the ones that fail stay in the queue, up to a number of attempts.

The number of each ticket, the last observation and the queue are saved together.  A flush loads
them, sends batch by batch, and saves in the end; if it crashes in between, what it has sent stays
sent and the next flush starts from what was saved before.
-/
import Mathlib.Data.List.Count
import GuvFX.TradeCopier.Diff
import GuvFX.TradeCopier.Ingestion

namespace GuvFX
namespace Emitter

open Diff Ingestion Runs

/-! ### Observations -/

structure ObservedMasterPosition where
  ticket : ℤ
  symbol : String
  side : String
  volume : ℚ
  sl : Option ℚ := none
  tp : Option ℚ := none
  priceOpen : Option ℚ := none
  originalVolume : Option ℚ := none
  openTime : Option Time := none
  brokerEventTime : Option Time := none
  deriving DecidableEq, Repr

/-- What the difference looks at. -/
def ObservedMasterPosition.toObserved (p : ObservedMasterPosition) : ObservedPosition where
  ticket := p.ticket
  symbol := p.symbol
  side := p.side
  volume := p.volume
  sl := p.sl
  tp := p.tp
  comment := ""

def current (positions : List ObservedMasterPosition) (t : ℤ) : Option ObservedMasterPosition :=
  positions.reverse.find? fun p => p.ticket = t

def snapshot (positions : List ObservedMasterPosition) : List ObservedPosition :=
  ((positions.map (·.ticket)).dedup.filterMap (current positions)).map (·.toObserved)

/-! ### Revisions -/

structure PositionState where
  symbol : String
  side : String
  volume : ℚ
  sl : Option ℚ
  tp : Option ℚ
  priceOpen : Option ℚ
  originalVolume : Option ℚ
  openTime : Option Time
  deriving DecidableEq, Repr

/-- A revision as it is sent; it carries a position unless the ticket is closed. -/
structure RevisionPayload where
  accountId : ℤ
  ticket : ℤ
  revision : ℕ
  observedTime : Time
  brokerLogin : String
  brokerServer : String
  brokerEventTime : Option Time
  position : Option PositionState
  deriving DecidableEq, Repr

/-- How the emitter is set up. -/
structure Config where
  accountId : ℤ
  enabled : Bool
  brokerLogin : String
  brokerServer : String
  maxPending : ℕ
  maxAttempts : ℕ
  ttlSeconds : Time
  keyId : String

def revisionPayload (cfg : Config) (ticket : ℤ) (revision : ℕ) (now : Time)
    (pos : Option ObservedMasterPosition) : RevisionPayload where
  accountId := cfg.accountId
  ticket := ticket
  revision := revision
  observedTime := now
  brokerLogin := cfg.brokerLogin
  brokerServer := cfg.brokerServer
  brokerEventTime := pos.bind (·.brokerEventTime)
  position := pos.map fun p =>
    { symbol := p.symbol, side := p.side, volume := p.volume, sl := p.sl, tp := p.tp
      priceOpen := p.priceOpen, originalVolume := p.originalVolume, openTime := p.openTime }

/-- The next revision of one changed ticket, after those of the tickets before it. -/
def assignRevision (cfg : Config) (now : Time) (positions : List ObservedMasterPosition)
    (acc : (ℤ → ℕ) × List RevisionPayload) (ticket : ℤ) : (ℤ → ℕ) × List RevisionPayload :=
  let revision := acc.1 ticket + 1
  (Function.update acc.1 ticket revision,
    acc.2 ++ [revisionPayload cfg ticket revision now (current positions ticket)])

def assignRevisions (cfg : Config) (now : Time) (positions : List ObservedMasterPosition)
    (perTicketRevision : ℤ → ℕ) (changed : List ℤ) : (ℤ → ℕ) × List RevisionPayload :=
  changed.foldl (assignRevision cfg now positions) (perTicketRevision, [])

/-! ### The spool -/

structure Batch where
  batchId : String
  revisions : List RevisionPayload
  attempts : ℕ
  deriving DecidableEq, Repr

/-- What is saved. -/
structure SpoolState where
  perTicketRevision : ℤ → ℕ
  lastSnapshot : List ObservedPosition
  pending : List Batch
  dropped : ℕ

def SpoolState.empty : SpoolState := ⟨fun _ => 0, [], [], 0⟩

def changedTickets (st : SpoolState) (positions : List ObservedMasterPosition) : List ℤ :=
  ((diffPositions st.lastSnapshot (snapshot positions)).map (·.ticket)).dedup.insertionSort (· ≤ ·)

/-- The queue with one batch more, unless it is full; then the batch is dropped and counted. -/
def SpoolState.enqueue (st : SpoolState) (maxPending : ℕ) (batch : Batch) : SpoolState :=
  if maxPending ≤ st.pending.length then { st with dropped := st.dropped + 1 }
  else { st with pending := st.pending ++ [batch] }

/-- One observation: what is saved, and the revisions it has assigned. -/
def observe (cfg : Config) (now : Time) (batchId : String)
    (positions : List ObservedMasterPosition) (st : SpoolState) :
    SpoolState × List RevisionPayload :=
  if !cfg.enabled then (st, [])
  else
    let changed := changedTickets st positions
    if changed = [] then ({ st with lastSnapshot := snapshot positions }, [])
    else
      let assigned := assignRevisions cfg now positions st.perTicketRevision changed
      let st' := { st with perTicketRevision := assigned.1 }.enqueue cfg.maxPending
        { batchId, revisions := assigned.2, attempts := 0 }
      ({ st' with lastSnapshot := snapshot positions }, assigned.2)

/-! ### Flushes -/

structure Flush where
  secret : String
  loaded : SpoolState
  todo : List Batch
  stillPending : List Batch
  dropped : ℕ

def Flush.start (secret : String) (st : SpoolState) : Flush where
  secret := secret
  loaded := st
  todo := st.pending
  stillPending := []
  dropped := st.dropped

def signBatch (crypto : Crypto (List RevisionPayload)) (cfg : Config) (secret nonce : String)
    (now : Time) (revisions : List RevisionPayload) : Envelope (List RevisionPayload) :=
  signIngestRequest crypto cfg.accountId secret nonce now revisions cfg.keyId "" cfg.ttlSeconds

/-- After the answer to a batch was seen: done, dropped, or kept for the next flush. -/
def Flush.settle (f : Flush) (maxAttempts : ℕ) (batch : Batch) (rest : List Batch) (ok : Bool) :
    Flush :=
  let attempts := batch.attempts + 1
  if ok then { f with todo := rest }
  else if maxAttempts ≤ attempts then { f with todo := rest, dropped := f.dropped + 1 }
  else { f with todo := rest, stillPending := f.stillPending ++ [{ batch with attempts }] }

def Flush.saved (f : Flush) : SpoolState :=
  { f.loaded with pending := f.stillPending, dropped := f.dropped }

/-! ### The emitter -/

structure State where
  /-- What was saved last. -/
  spool : SpoolState
  flush : Option Flush
  /-- Everything that was handed to the transport. -/
  sent : List (Envelope (List RevisionPayload))
  /-- The batches that were assigned, queued or dropped. -/
  batches : List (List RevisionPayload)

def init : State := ⟨.empty, none, [], []⟩

def State.assigned (s : State) : List RevisionPayload := s.batches.flatten

/-- The steps of the emitter; it does one thing at a time. -/
inductive Action where
  | observe (now : Time) (batchId : String) (positions : List ObservedMasterPosition)
  /-- A flush gets the key and loads the spool. -/
  | beginFlush (secret : String)
  /-- It sends the next batch, which may arrive or not, and sees success or not. -/
  | send (nonce : String) (now : Time) (ok : Bool)
  | saveFlush
  /-- The process dies, and another one starts from what was saved. -/
  | crash

def step (crypto : Crypto (List RevisionPayload)) (cfg : Config) (s : State) : Action → State
  | .observe now batchId positions =>
    match s.flush with
    | some _ => s
    | none =>
      let (spool, revisions) := observe cfg now batchId positions s.spool
      { s with spool, batches := s.batches ++ [revisions] }
  | .beginFlush secret =>
    match s.flush with
    | some _ => s
    | none =>
      if !cfg.enabled || secret = "" then s
      else
        { s with flush := some (Flush.start secret s.spool) }
  | .send nonce now ok =>
    match s.flush with
    | none => s
    | some f =>
      match f.todo with
      | [] => s
      | batch :: rest =>
        { s with
          sent := s.sent ++ [signBatch crypto cfg f.secret nonce now batch.revisions]
          flush := some (f.settle cfg.maxAttempts batch rest ok) }
  | .saveFlush =>
    match s.flush with
    | none => s
    | some f =>
      match f.todo with
      | [] => { s with spool := f.saved, flush := none }
      | _ :: _ => s
  | .crash => { s with flush := none }

/-! ### What an observation assigns -/

variable {crypto : Crypto (List RevisionPayload)} {cfg : Config} {s : State} {now : Time}
  {positions : List ObservedMasterPosition} {st : SpoolState}

lemma assignRevisions_eq (per : ℤ → ℕ) {changed : List ℤ} (h : changed.Nodup) :
    assignRevisions cfg now positions per changed =
      (fun t => if t ∈ changed then per t + 1 else per t,
        changed.map fun t => revisionPayload cfg t (per t + 1) now (current positions t)) := by
  induction changed using List.reverseRecOn with
  | nil => rfl
  | append_singleton changed t ih =>
    have hnot : t ∉ changed := by
      have hdisjoint := (List.nodup_append.mp h).2.2
      exact fun hmem => hdisjoint t hmem t (List.mem_singleton.mpr rfl) rfl
    have hprefix := ih (List.nodup_append.mp h).1
    rw [assignRevisions] at hprefix
    rw [assignRevisions, List.foldl_append, hprefix]
    simp only [List.foldl_cons, List.foldl_nil, assignRevision, if_neg hnot, List.map_append,
      List.map_cons, List.map_nil, Prod.mk.injEq, and_true]
    funext k
    by_cases hk : k = t
    · subst hk
      simp
    · simp [hk]

lemma nodup_changedTickets : (changedTickets st positions).Nodup :=
  ((List.perm_insertionSort _ _).nodup_iff).mpr (List.nodup_dedup _)

lemma observe_cases (cfg : Config) (now : Time) (batchId : String)
    (positions : List ObservedMasterPosition) (st : SpoolState) :
    ((observe cfg now batchId positions st).2 = [] ∧
        (observe cfg now batchId positions st).1.perTicketRevision = st.perTicketRevision ∧
        (observe cfg now batchId positions st).1.pending = st.pending) ∨
      (∃ changed : List ℤ, changed.Nodup ∧
        (observe cfg now batchId positions st).2 = changed.map (fun t =>
          revisionPayload cfg t (st.perTicketRevision t + 1) now (current positions t)) ∧
        (observe cfg now batchId positions st).1.perTicketRevision =
          (fun t => if t ∈ changed then st.perTicketRevision t + 1 else st.perTicketRevision t) ∧
        ((observe cfg now batchId positions st).1.pending = st.pending ∨
          st.pending.length < cfg.maxPending ∧
            (observe cfg now batchId positions st).1.pending = st.pending ++
              [⟨batchId, (observe cfg now batchId positions st).2, 0⟩])) := by
  unfold observe
  dsimp only
  split_ifs with henabled hchanged
  · exact .inl ⟨rfl, rfl, rfl⟩
  · exact .inl ⟨rfl, rfl, rfl⟩
  · refine .inr ⟨changedTickets st positions, nodup_changedTickets, ?_⟩
    rw [assignRevisions_eq st.perTicketRevision nodup_changedTickets]
    unfold SpoolState.enqueue
    dsimp only
    split_ifs with hfull
    · exact ⟨rfl, rfl, .inl rfl⟩
    · exact ⟨rfl, rfl, .inr ⟨not_le.mp hfull, rfl⟩⟩

/-! ### The ledger of the revisions -/

def Increases (r r' : RevisionPayload) : Prop := r.ticket = r'.ticket → r.revision < r'.revision

/-- What the emitter keeps. -/
structure Inv (cfg : Config) (s : State) : Prop where
  increasing : s.assigned.Pairwise Increases
  numbered : ∀ r ∈ s.assigned, r.revision ≤ s.spool.perTicketRevision r.ticket
  queued : ∀ b ∈ s.spool.pending, b.revisions ∈ s.batches
  bounded : s.spool.pending.length ≤ cfg.maxPending
  loaded : ∀ f, s.flush = some f → f.loaded = s.spool
  flushing : ∀ f, s.flush = some f → ∀ b ∈ f.todo ++ f.stillPending, b.revisions ∈ s.batches
  room : ∀ f, s.flush = some f → f.todo.length + f.stillPending.length ≤ cfg.maxPending
  sent : ∀ e ∈ s.sent, ∃ revisions ∈ s.batches, e.payload = some revisions

lemma inv_init (cfg : Config) : Inv cfg init where
  increasing := .nil
  numbered _ h := nomatch h
  queued _ h := nomatch h
  bounded := Nat.zero_le _
  loaded _ h := nomatch h
  flushing _ h := nomatch h
  room _ h := nomatch h
  sent _ h := nomatch h

lemma increasing_append {assigned : List RevisionPayload} {per : ℤ → ℕ} {changed : List ℤ}
    (h : assigned.Pairwise Increases) (hper : ∀ r ∈ assigned, r.revision ≤ per r.ticket)
    (hchanged : changed.Nodup) :
    (assigned ++ changed.map fun t =>
      revisionPayload cfg t (per t + 1) now (current positions t)).Pairwise Increases := by
  refine List.pairwise_append.mpr ⟨h, ?_, ?_⟩
  · -- within one observation the tickets are distinct
    refine List.pairwise_map.mpr (hchanged.imp fun {t t'} hne htickets => ?_)
    exact absurd htickets hne
  · intro r hr r' hr' htickets
    obtain ⟨t, -, rfl⟩ := List.mem_map.mp hr'
    have hle := hper r hr
    rw [htickets] at hle
    exact Nat.lt_succ_of_le hle

lemma Inv.observe (h : Inv cfg s) (hflush : s.flush = none) (now : Time) (batchId : String)
    (positions : List ObservedMasterPosition) :
    Inv cfg { s with
      spool := (Emitter.observe cfg now batchId positions s.spool).1
      batches := s.batches ++ [(Emitter.observe cfg now batchId positions s.spool).2] } := by
  have hassigned : ∀ spool revisions,
      State.assigned { s with spool, batches := s.batches ++ [revisions] }
        = s.assigned ++ revisions := by
    intro spool revisions
    simp [State.assigned]
  have hno : ∀ f, s.flush ≠ some f := fun f hf => by rw [hflush] at hf; cases hf
  rcases observe_cases cfg now batchId positions s.spool with
    ⟨hnil, hper, hpending⟩ | ⟨changed, hchanged, hrevisions, hper, hpending⟩
  · constructor
    · rw [hassigned, hnil, List.append_nil]
      exact h.increasing
    · rw [hassigned, hnil, List.append_nil, hper]
      exact h.numbered
    · rw [hpending]
      exact fun b hb => List.mem_append_left _ (h.queued b hb)
    · rw [hpending]
      exact h.bounded
    · exact fun f hf => absurd hf (hno f)
    · exact fun f hf => absurd hf (hno f)
    · exact fun f hf => absurd hf (hno f)
    · intro e he
      obtain ⟨revisions, hmem, hpayload⟩ := h.sent e he
      exact ⟨revisions, List.mem_append_left _ hmem, hpayload⟩
  · constructor
    · rw [hassigned, hrevisions]
      exact increasing_append h.increasing h.numbered hchanged
    · rw [hassigned, hrevisions, hper]
      intro r hr
      rcases List.mem_append.mp hr with hr | hr
      · have hle := h.numbered r hr
        dsimp only
        split_ifs
        · omega
        · exact hle
      · obtain ⟨t, ht, rfl⟩ := List.mem_map.mp hr
        show s.spool.perTicketRevision t + 1 ≤ _
        dsimp only [revisionPayload]
        rw [if_pos ht]
    · intro b hb
      rcases hpending with hsame | ⟨-, happend⟩
      · rw [hsame] at hb
        exact List.mem_append_left _ (h.queued b hb)
      · rw [happend] at hb
        rcases List.mem_append.mp hb with hb | hb
        · exact List.mem_append_left _ (h.queued b hb)
        · rw [List.mem_singleton.mp hb]
          exact List.mem_append_right _ (List.mem_singleton.mpr rfl)
    · have hbounded := h.bounded
      rcases hpending with hsame | ⟨hroom, happend⟩
      · rw [hsame]
        exact hbounded
      · rw [happend, List.length_append, List.length_singleton]
        omega
    · exact fun f hf => absurd hf (hno f)
    · exact fun f hf => absurd hf (hno f)
    · exact fun f hf => absurd hf (hno f)
    · intro e he
      obtain ⟨revisions, hmem, hpayload⟩ := h.sent e he
      exact ⟨revisions, List.mem_append_left _ hmem, hpayload⟩

lemma Flush.settle_cases (f : Flush) (maxAttempts : ℕ) (batch : Batch) (rest : List Batch)
    (ok : Bool) :
    (f.settle maxAttempts batch rest ok).loaded = f.loaded ∧
      (f.settle maxAttempts batch rest ok).todo = rest ∧
      ((f.settle maxAttempts batch rest ok).stillPending = f.stillPending ∨
        (f.settle maxAttempts batch rest ok).stillPending =
          f.stillPending ++ [{ batch with attempts := batch.attempts + 1 }]) := by
  unfold Flush.settle
  dsimp only
  split_ifs
  · exact ⟨rfl, rfl, .inl rfl⟩
  · exact ⟨rfl, rfl, .inl rfl⟩
  · exact ⟨rfl, rfl, .inr rfl⟩

lemma Inv.send (h : Inv cfg s) {f : Flush} {batch : Batch} {rest : List Batch}
    (hf : s.flush = some f) (htodo : f.todo = batch :: rest) (nonce : String) (now : Time)
    (ok : Bool) :
    Inv cfg { s with
      sent := s.sent ++ [signBatch crypto cfg f.secret nonce now batch.revisions]
      flush := some (f.settle cfg.maxAttempts batch rest ok) } := by
  obtain ⟨hloaded, hrest, hstill⟩ := f.settle_cases cfg.maxAttempts batch rest ok
  have hflushing := h.flushing f hf
  have hroom := h.room f hf
  rw [htodo] at hflushing hroom
  have hbatch : batch.revisions ∈ s.batches := hflushing batch (by simp)
  refine ⟨h.increasing, h.numbered, h.queued, h.bounded, ?_, ?_, ?_, ?_⟩
  · rintro f' hf'
    obtain rfl := Option.some.inj hf'
    rw [hloaded, h.loaded f hf]
  · rintro f' hf' b hb
    obtain rfl := Option.some.inj hf'
    rw [hrest] at hb
    rcases hstill with hsame | happend
    · rw [hsame] at hb
      exact hflushing b (List.mem_cons_of_mem _ hb)
    · rw [happend, ← List.append_assoc] at hb
      rcases List.mem_append.mp hb with hb | hb
      · exact hflushing b (List.mem_cons_of_mem _ hb)
      · rw [List.mem_singleton.mp hb]
        exact hbatch
  · rintro f' hf'
    obtain rfl := Option.some.inj hf'
    rw [hrest]
    rw [List.length_cons] at hroom
    rcases hstill with hsame | happend
    · rw [hsame]
      omega
    · rw [happend, List.length_append, List.length_singleton]
      omega
  · intro e he
    rcases List.mem_append.mp he with he | he
    · exact h.sent e he
    · rw [List.mem_singleton.mp he]
      exact ⟨batch.revisions, hbatch, rfl⟩

lemma inv_step (h : Inv cfg s) (a : Action) : Inv cfg (step crypto cfg s a) := by
  cases a with
  | observe now batchId positions =>
    simp only [step]
    split
    · exact h
    · rename_i hflush
      exact h.observe hflush now batchId positions
  | beginFlush secret =>
    simp only [step]
    split
    · exact h
    · split_ifs
      · exact h
      · refine { h with loaded := ?_, flushing := ?_, room := ?_ }
        · rintro f hf
          obtain rfl := Option.some.inj hf
          rfl
        · rintro f hf b hb
          obtain rfl := Option.some.inj hf
          exact h.queued b (by simpa [Flush.start] using hb)
        · rintro f hf
          obtain rfl := Option.some.inj hf
          simpa [Flush.start] using h.bounded
  | send nonce now ok =>
    simp only [step]
    split
    · exact h
    · rename_i f hf
      split
      · exact h
      · rename_i batch rest htodo
        exact h.send hf htodo nonce now ok
  | saveFlush =>
    simp only [step]
    split
    · exact h
    · rename_i f hf
      split
      · rename_i htodo
        have hflushing := h.flushing f hf
        have hroom := h.room f hf
        have hloaded := h.loaded f hf
        rw [htodo, List.nil_append] at hflushing
        rw [htodo, List.length_nil, Nat.zero_add] at hroom
        refine
          { h with
            numbered := ?_
            queued := hflushing
            bounded := hroom
            loaded := fun _ hf => nomatch hf
            flushing := fun _ hf => nomatch hf
            room := fun _ hf => nomatch hf }
        show ∀ r ∈ s.assigned, r.revision ≤ f.loaded.perTicketRevision r.ticket
        rw [hloaded]
        exact h.numbered
      · exact h
  | crash =>
    exact
      { h with
        loaded := fun _ hf => nomatch hf
        flushing := fun _ hf => nomatch hf
        room := fun _ hf => nomatch hf }

lemma eq_of_sameRevision {batches : List (List RevisionPayload)}
    (h : batches.flatten.Pairwise Increases) {b b' : List RevisionPayload} {r r' : RevisionPayload}
    (hb : b ∈ batches) (hb' : b' ∈ batches) (hr : r ∈ b) (hr' : r' ∈ b')
    (hticket : r.ticket = r'.ticket) (hrevision : r.revision = r'.revision) : b = b' ∧ r = r' := by
  let Distinct (r r' : RevisionPayload) : Prop := ¬ (r.ticket = r'.ticket ∧ r.revision = r'.revision)
  have hsymm : Std.Symm Distinct := ⟨fun r r' hd heq => hd ⟨heq.1.symm, heq.2.symm⟩⟩
  have hlists : Std.Symm fun l l' : List RevisionPayload => ∀ r ∈ l, ∀ r' ∈ l', Distinct r r' :=
    ⟨fun l l' hl r hr r' hr' => hsymm.symm _ _ (hl r' hr' r hr)⟩
  have hdistinct : batches.flatten.Pairwise Distinct :=
    h.imp fun {r r'} hlt heq => (hlt heq.1).ne heq.2
  obtain ⟨hwithin, hacross⟩ := List.pairwise_flatten.mp hdistinct
  have hsame : b = b' := by
    by_contra hne
    exact hacross.forall hb hb' hne r hr r' hr' ⟨hticket, hrevision⟩
  refine ⟨hsame, ?_⟩
  by_contra hne
  subst hsame
  exact (hwithin b hb).forall hr hr' hne ⟨hticket, hrevision⟩

/-! ### Runs -/

/-- The ledger of the emitter: the revisions of a ticket grow; what was sent under one ticket and one
number is one revision, and all that was sent with it is the same; and the queue is bounded. -/
structure RevisionLedger (cfg : Config) (s : State) : Prop where
  increasing : s.assigned.Pairwise Increases
  assigned : ∀ e ∈ s.sent, ∀ r ∈ e.payload.getD [], r ∈ s.assigned
  bound : ∀ e ∈ s.sent, ∀ e' ∈ s.sent, ∀ r ∈ e.payload.getD [], ∀ r' ∈ e'.payload.getD [],
    r.ticket = r'.ticket → r.revision = r'.revision → r = r' ∧ e.payload = e'.payload
  bounded : s.spool.pending.length ≤ cfg.maxPending

/-- **The revision ledger.**  After any observations and flushes, with failing sends, with crashes
at any point, and with restarts from what was saved, the revisions of every ticket grow, every
revision that was ever sent has one content, a batch that is sent again has the same payload, and
the queue is within its bound. -/
theorem revision_ledger (crypto : Crypto (List RevisionPayload)) (cfg : Config)
    (as : List Action) : RevisionLedger cfg (run (step crypto cfg) init as) := by
  have h : Inv cfg (run (step crypto cfg) init as) :=
    run_invariant (P := Inv cfg) (fun _ a h => inv_step h a) (inv_init cfg) as
  refine ⟨h.increasing, ?_, ?_, h.bounded⟩
  · intro e he r hr
    obtain ⟨revisions, hmem, hpayload⟩ := h.sent e he
    rw [hpayload] at hr
    exact List.mem_flatten.mpr ⟨revisions, hmem, hr⟩
  · intro e he e' he' r hr r' hr' hticket hrevision
    obtain ⟨b, hb, hpayload⟩ := h.sent e he
    obtain ⟨b', hb', hpayload'⟩ := h.sent e' he'
    rw [hpayload] at hr
    rw [hpayload'] at hr'
    obtain ⟨rfl, rfl⟩ := eq_of_sameRevision h.increasing hb hb' hr hr' hticket hrevision
    exact ⟨rfl, by rw [hpayload, hpayload']⟩

/-- A digest and a keyed hash for batches. -/
def sampleCrypto : Crypto (List RevisionPayload) where
  digest revisions := toString revisions.length
  mac secret signed := secret ++ signed.nonce.getD ""

def sampleConfig : Config where
  accountId := 1
  enabled := true
  brokerLogin := "1001"
  brokerServer := "Alpha-Live"
  maxPending := 1000
  maxAttempts := 5
  ttlSeconds := 30
  keyId := defaultKeyId

def samplePosition (ticket : ℤ) (volume : ℚ) : ObservedMasterPosition :=
  { ticket, symbol := "EURUSD", side := "BUY", volume }

/-- A batch is sent, the answer is a failure, and it is sent again. -/
def resent : List Action :=
  [.observe 10 "b" [samplePosition 7 1], .beginFlush "key", .send "n" 11 false, .saveFlush,
    .beginFlush "key", .send "m" 12 true, .saveFlush]

/-- The second envelope has the payload of the first one, and is not the same. -/
theorem resend_signs_again :
    let sent := (run (step sampleCrypto sampleConfig) init resent).sent
    sent.length = 2 ∧ sent[0]?.map (·.payload) = sent[1]?.map (·.payload) ∧ sent[0]? ≠ sent[1]? := by
  decide +kernel

end Emitter
end GuvFX
