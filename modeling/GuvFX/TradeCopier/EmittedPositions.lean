/-
# What the emitter has told

The emitter takes its last observation as the state that it has told, and emits a revision when an
observation differs from it.  The difference has a tolerance and looks at neither the symbol nor the
side, so the last observation may move away from the newest revision in steps that the difference
does not see; but the one holds a ticket exactly when the other does.

A batch that does not fit the queue, or that has failed too often, is not sent again.  The emitter
counts it: as long as the counter is zero, every batch has been acknowledged or is still queued.
-/
import Mathlib.Logic.Relation
import GuvFX.TradeCopier.Emitter

namespace GuvFX
namespace Emitter

open Diff Ingestion Relation Runs

/-! ### The newest revision of a ticket -/

def RevisionPayload.observed (r : RevisionPayload) : Option ObservedPosition :=
  r.position.map fun p =>
    { ticket := r.ticket, symbol := p.symbol, side := p.side, volume := p.volume
      sl := p.sl, tp := p.tp, comment := "" }

def newestAssigned (assigned : List RevisionPayload) (t : ℤ) : Option RevisionPayload :=
  (assigned.filter fun r => r.ticket = t).getLast?

/-- The position that the newest revision of a ticket carries; none if it closes the ticket. -/
def emitted (assigned : List RevisionPayload) (t : ℤ) : Option ObservedPosition :=
  (newestAssigned assigned t).bind (·.observed)

/-- The difference emits nothing for a ticket between these two observations. -/
def Unseen (before after : Option ObservedPosition) : Prop := ticketEvents before after = []

/-- A change that is not seen neither opens nor closes the ticket. -/
lemma Unseen.isSome_eq {before after : Option ObservedPosition} (h : Unseen before after) :
    before.isSome = after.isSome := by
  cases before with
  | none =>
    cases after with
    | none => rfl
    | some _ => cases h
  | some _ =>
    cases after with
    | none => cases h
    | some _ => rfl

lemma isSome_eq_of_unseen {before after : Option ObservedPosition}
    (h : ReflTransGen Unseen before after) : before.isSome = after.isSome := by
  induction h with
  | refl => rfl
  | tail _ hlast ih => rw [ih, hlast.isSome_eq]

variable {assigned : List RevisionPayload} {t : ℤ} {r : RevisionPayload}

lemma of_newestAssigned (h : newestAssigned assigned t = some r) :
    r ∈ assigned ∧ r.ticket = t := by
  have hmem := List.mem_of_getLast? h
  rw [List.mem_filter, decide_eq_true_iff] at hmem
  exact hmem

lemma newestAssigned_eq_none_iff :
    newestAssigned assigned t = none ↔ ∀ r ∈ assigned, r.ticket ≠ t := by
  rw [newestAssigned, List.getLast?_eq_none_iff, List.filter_eq_nil_iff]
  simp only [decide_eq_true_eq, ne_eq]

lemma le_newestAssigned (hinc : assigned.Pairwise Increases) (h : newestAssigned assigned t = some r)
    {r' : RevisionPayload} (hmem : r' ∈ assigned) (hticket : r'.ticket = t) :
    r'.revision ≤ r.revision := by
  obtain ⟨init, hinit⟩ := List.getLast?_eq_some_iff.mp h
  have hrt := (of_newestAssigned h).2
  have hmem' : r' ∈ init ++ [r] := by
    rw [← hinit, List.mem_filter, decide_eq_true_iff]
    exact ⟨hmem, hticket⟩
  have hsub : (init ++ [r]).Pairwise Increases := hinit ▸ hinc.sublist List.filter_sublist
  rcases List.mem_append.mp hmem' with hearlier | hlast
  · have hlt := (List.pairwise_append.mp hsub).2.2 r' hearlier r (List.mem_singleton.mpr rfl)
    exact (hlt (hticket.trans hrt.symm)).le
  · rw [List.mem_singleton.mp hlast]

/-! ### One observation -/

variable {cfg : Config} {now : Time} {batchId : String} {positions : List ObservedMasterPosition}
  {st : SpoolState}

lemma ticket_of_current {p : ObservedMasterPosition} (h : current positions t = some p) :
    p.ticket = t := by
  simpa using List.find?_some h

lemma index_snapshot (positions : List ObservedMasterPosition) (t : ℤ) :
    index (snapshot positions) t = (current positions t).map (·.toObserved) := by
  rw [snapshot, List.map_filterMap]
  refine index_filterMap ?_ (List.nodup_dedup _) ?_
  · intro k p hp
    obtain ⟨q, hq, rfl⟩ := Option.map_eq_some_iff.mp hp
    exact ticket_of_current hq
  · intro p hp
    obtain ⟨q, hq, rfl⟩ := Option.map_eq_some_iff.mp hp
    have hmem : q ∈ positions := List.mem_reverse.mp (List.mem_of_find?_eq_some hq)
    rw [List.mem_dedup, ← ticket_of_current hq]
    exact List.mem_map_of_mem hmem

lemma mem_changedTickets :
    t ∈ changedTickets st positions ↔
      ¬ Unseen (index st.lastSnapshot t) (index (snapshot positions) t) := by
  rw [changedTickets, List.mem_insertionSort, List.mem_dedup, Unseen, ← filter_diffPositions,
    List.filter_eq_nil_iff]
  simp only [List.mem_map, decide_eq_true_eq, not_forall, not_not, exists_prop]

lemma observe_disabled (h : cfg.enabled = false) :
    observe cfg now batchId positions st = (st, []) := by
  rw [observe, h]
  rfl

lemma observe_revisions (h : cfg.enabled = true) :
    (observe cfg now batchId positions st).2 = (changedTickets st positions).map fun t =>
      revisionPayload cfg t (st.perTicketRevision t + 1) now (current positions t) := by
  have hno : ¬ (!cfg.enabled) = true := by rw [h]; decide
  unfold observe
  rw [if_neg hno]
  dsimp only
  by_cases hchanged : changedTickets st positions = []
  · rw [if_pos hchanged, hchanged]
    rfl
  · rw [if_neg hchanged, assignRevisions_eq st.perTicketRevision nodup_changedTickets]

lemma observe_lastSnapshot (h : cfg.enabled = true) :
    (observe cfg now batchId positions st).1.lastSnapshot = snapshot positions := by
  have hno : ¬ (!cfg.enabled) = true := by rw [h]; decide
  unfold observe
  rw [if_neg hno]
  dsimp only
  split_ifs <;> rfl

lemma emitted_observe (h : cfg.enabled = true) (assigned : List RevisionPayload) (t : ℤ) :
    emitted (assigned ++ (observe cfg now batchId positions st).2) t =
      if t ∈ changedTickets st positions then index (snapshot positions) t
      else emitted assigned t := by
  have hfilter : ((observe cfg now batchId positions st).2).filter (fun r => r.ticket = t) =
      if t ∈ changedTickets st positions then
        [revisionPayload cfg t (st.perTicketRevision t + 1) now (current positions t)]
      else [] := by
    rw [observe_revisions h, List.filter_map]
    have hticket : ((fun r : RevisionPayload => decide (r.ticket = t)) ∘ fun k =>
        revisionPayload cfg k (st.perTicketRevision k + 1) now (current positions k)) =
        fun k => decide (k = t) := rfl
    rw [hticket, List.filter_eq, nodup_changedTickets.count]
    split_ifs <;> rfl
  rw [emitted, newestAssigned, List.filter_append, hfilter]
  split_ifs with hmem
  · rw [List.getLast?_concat, Option.bind_some, index_snapshot]
    cases hcur : current positions t with
    | none => rfl
    | some p =>
      obtain rfl := ticket_of_current hcur
      rfl
  · rw [List.append_nil]
    rfl

/-! ### The last observation and the newest revisions -/

/-- Of every ticket, the last observation is reached from the newest revision by changes that the
difference does not see. -/
def Follows (s : State) : Prop :=
  ∀ t, ReflTransGen Unseen (emitted s.assigned t) (index s.spool.lastSnapshot t)

lemma follows_init : Follows init := fun _ => .refl

variable {crypto : Crypto (List RevisionPayload)} {s : State}

lemma follows_observe (h : Follows s) (now : Time) (batchId : String)
    (positions : List ObservedMasterPosition) :
    Follows { s with
      spool := (observe cfg now batchId positions s.spool).1
      batches := s.batches ++ [(observe cfg now batchId positions s.spool).2] } := by
  intro t
  have hassigned : State.assigned { s with
      spool := (observe cfg now batchId positions s.spool).1
      batches := s.batches ++ [(observe cfg now batchId positions s.spool).2] } =
      s.assigned ++ (observe cfg now batchId positions s.spool).2 := by
    simp [State.assigned]
  rw [hassigned]
  cases henabled : cfg.enabled with
  | false =>
    rw [observe_disabled henabled, List.append_nil]
    exact h t
  | true =>
    dsimp only
    rw [emitted_observe henabled, observe_lastSnapshot henabled]
    by_cases hmem : t ∈ changedTickets s.spool positions
    · rw [if_pos hmem]
    · rw [if_neg hmem]
      exact (h t).tail (not_not.mp fun hseen => hmem (mem_changedTickets.mpr hseen))

theorem follows_step (hinv : Inv cfg s) (h : Follows s) (a : Action) :
    Follows (step crypto cfg s a) := by
  cases a with
  | observe now batchId positions =>
    dsimp only [step]
    cases s.flush with
    | some f => exact h
    | none => exact follows_observe h now batchId positions
  | beginFlush secret =>
    dsimp only [step]
    cases s.flush with
    | some f => exact h
    | none =>
      dsimp only
      split_ifs <;> exact h
  | send nonce now ok =>
    dsimp only [step]
    cases s.flush with
    | none => exact h
    | some f =>
      dsimp only
      cases f.todo <;> exact h
  | saveFlush =>
    dsimp only [step]
    cases hflush : s.flush with
    | none => exact h
    | some f =>
      dsimp only
      cases f.todo with
      | cons b rest => exact h
      | nil =>
        -- the flush saves the observation that it has loaded
        have hloaded := hinv.loaded f hflush
        intro t
        have hsnapshot : f.saved.lastSnapshot = s.spool.lastSnapshot := by rw [← hloaded]; rfl
        rw [hsnapshot]
        exact h t
  | crash => exact h

/-! ### Batches that are dropped -/

def acknowledged (s : State) : Action → List (List RevisionPayload)
  | .send _ _ true =>
    match s.flush with
    | none => []
    | some f => (f.todo.take 1).map (·.revisions)
  | _ => []

/-- The batches `acked` have been acknowledged; as long as nothing is counted as dropped, the others
are queued, or under way in a flush. -/
structure Accounted (acked : List (List RevisionPayload)) (s : State) : Prop where
  saved : s.spool.dropped = 0 → ∀ b ∈ s.batches, b ≠ [] →
    b ∈ acked ∨ ∃ q ∈ s.spool.pending, q.revisions = b
  flushing : ∀ f, s.flush = some f → s.spool.dropped ≤ f.dropped ∧
    (f.dropped = 0 → ∀ q ∈ s.spool.pending, q.revisions ∈ acked ∨
      ∃ q' ∈ f.todo ++ f.stillPending, q'.revisions = q.revisions)

lemma accounted_init : Accounted [] init where
  saved _ _ h := nomatch h
  flushing _ h := nomatch h

lemma observe_account (cfg : Config) (now : Time) (batchId : String)
    (positions : List ObservedMasterPosition) (st : SpoolState) :
    let after := observe cfg now batchId positions st
    after.2 = [] ∧ after.1.dropped = st.dropped ∧ after.1.pending = st.pending ∨
      after.1.dropped = st.dropped + 1 ∨
      after.1.dropped = st.dropped ∧ after.1.pending = st.pending ++ [⟨batchId, after.2, 0⟩] := by
  unfold observe
  dsimp only
  split_ifs with henabled hchanged
  · exact .inl ⟨rfl, rfl, rfl⟩
  · exact .inl ⟨rfl, rfl, rfl⟩
  · unfold SpoolState.enqueue
    dsimp only
    split_ifs with hfull
    · exact .inr (.inl rfl)
    · exact .inr (.inr ⟨rfl, rfl⟩)

variable {acked : List (List RevisionPayload)}

lemma Accounted.observe (h : Accounted acked s) (hflush : s.flush = none) (cfg : Config)
    (now : Time) (batchId : String) (positions : List ObservedMasterPosition) :
    Accounted acked { s with
      spool := (Emitter.observe cfg now batchId positions s.spool).1
      batches := s.batches ++ [(Emitter.observe cfg now batchId positions s.spool).2] } := by
  refine ⟨fun hzero b hb hne => ?_, fun f hf => ?_⟩
  · dsimp only at hzero hb ⊢
    rcases observe_account cfg now batchId positions s.spool with
      ⟨hnil, hdropped, hpending⟩ | hdropped | ⟨hdropped, hpending⟩
    · rw [hnil, List.mem_append, List.mem_singleton] at hb
      rw [hdropped] at hzero
      rw [hpending]
      exact h.saved hzero b (hb.resolve_right hne) hne
    · rw [hdropped] at hzero
      cases hzero
    · rw [hdropped] at hzero
      rw [hpending]
      rcases List.mem_append.mp hb with hold | hnew
      · rcases h.saved hzero b hold hne with hacked | ⟨q, hq, hqb⟩
        · exact .inl hacked
        · exact .inr ⟨q, List.mem_append_left _ hq, hqb⟩
      · exact .inr ⟨_, List.mem_append_right _ (List.mem_singleton.mpr rfl),
          (List.mem_singleton.mp hnew).symm⟩
  · rw [show s.flush = some f from hf] at hflush
    cases hflush

lemma Flush.settle_account (f : Flush) (maxAttempts : ℕ) (batch : Batch) (rest : List Batch)
    (ok : Bool) :
    let after := f.settle maxAttempts batch rest ok
    after.todo = rest ∧ f.dropped ≤ after.dropped ∧
      (after.dropped = 0 → after.stillPending = f.stillPending ∧ ok = true ∨
        after.stillPending =
          f.stillPending ++ [{ batch with attempts := batch.attempts + 1 }]) := by
  unfold Flush.settle
  dsimp only
  split_ifs with hok hattempts
  · exact ⟨rfl, Nat.le_refl _, fun _ => .inl ⟨rfl, hok⟩⟩
  · exact ⟨rfl, Nat.le_succ _, fun hzero => nomatch hzero⟩
  · exact ⟨rfl, Nat.le_refl _, fun _ => .inr rfl⟩

lemma Accounted.send (h : Accounted acked s) {f : Flush} {batch : Batch} {rest : List Batch}
    (hf : s.flush = some f) (htodo : f.todo = batch :: rest) (e : Envelope (List RevisionPayload))
    (ok : Bool) :
    Accounted (acked ++ if ok then [batch.revisions] else []) { s with
      sent := s.sent ++ [e]
      flush := some (f.settle cfg.maxAttempts batch rest ok) } := by
  obtain ⟨hrest, hle, hstill⟩ := f.settle_account cfg.maxAttempts batch rest ok
  obtain ⟨hdropped, hkept⟩ := h.flushing f hf
  constructor
  · intro hzero b hb hne
    rcases h.saved hzero b hb hne with hacked | hq
    · exact .inl (List.mem_append_left _ hacked)
    · exact .inr hq
  · intro f' hf'
    obtain rfl := Option.some.inj hf'
    refine ⟨hdropped.trans hle, fun hzero q hq => ?_⟩
    rw [hrest]
    rcases hkept (Nat.le_zero.mp (hzero ▸ hle)) q hq with hacked | ⟨q', hq', hqq⟩
    · exact .inl (List.mem_append_left _ hacked)
    · rw [htodo, List.cons_append, List.mem_cons] at hq'
      rcases hq' with rfl | hq'
      · -- the batch that was sent
        rcases hstill hzero with ⟨-, hok⟩ | hsame
        · rw [hok, ← hqq]
          exact .inl (List.mem_append_right _ (List.mem_singleton.mpr rfl))
        · rw [hsame]
          exact .inr ⟨_, List.mem_append_right _
            (List.mem_append_right _ (List.mem_singleton.mpr rfl)), hqq⟩
      · rcases hstill hzero with ⟨hsame, -⟩ | hsame
        · rw [hsame]
          exact .inr ⟨q', hq', hqq⟩
        · rw [hsame, ← List.append_assoc]
          exact .inr ⟨q', List.mem_append_left _ hq', hqq⟩

theorem accounted_step (h : Accounted acked s) (a : Action) :
    Accounted (acked ++ acknowledged s a) (step crypto cfg s a) := by
  cases a with
  | observe now batchId positions =>
    dsimp only [step, acknowledged]
    rw [List.append_nil]
    cases hflush : s.flush with
    | some f => exact h
    | none =>
      have hnext := h.observe hflush cfg now batchId positions
      rwa [hflush] at hnext
  | beginFlush secret =>
    dsimp only [step, acknowledged]
    rw [List.append_nil]
    cases hflush : s.flush with
    | some f => exact h
    | none =>
      dsimp only
      split_ifs
      · exact h
      · refine ⟨h.saved, fun f hf => ?_⟩
        obtain rfl := Option.some.inj hf
        exact ⟨Nat.le_refl _, fun _ q hq => .inr ⟨q, List.mem_append_left _ hq, rfl⟩⟩
  | send nonce now ok =>
    dsimp only [step]
    cases hflush : s.flush with
    | none =>
      have hnone : acknowledged s (.send nonce now ok) = [] := by
        cases ok <;> simp only [acknowledged, hflush]
      rw [hnone, List.append_nil]
      exact h
    | some f =>
      dsimp only
      cases htodo : f.todo with
      | nil =>
        have hnone : acknowledged s (.send nonce now ok) = [] := by
          cases ok <;> simp [acknowledged, hflush, htodo]
        rw [hnone, List.append_nil]
        exact h
      | cons batch rest =>
        have hacked : acknowledged s (.send nonce now ok) =
            if ok then [batch.revisions] else [] := by
          cases ok <;> simp [acknowledged, hflush, htodo]
        rw [hacked]
        exact h.send hflush htodo _ ok
  | saveFlush =>
    dsimp only [step, acknowledged]
    rw [List.append_nil]
    cases hflush : s.flush with
    | none => exact h
    | some f =>
      dsimp only
      cases htodo : f.todo with
      | cons b rest => exact h
      | nil =>
        obtain ⟨hle, hkept⟩ := h.flushing f hflush
        refine ⟨fun hzero b hb hne => ?_, fun _ hf => nomatch hf⟩
        have hzero' : f.dropped = 0 := hzero
        rcases h.saved (Nat.le_zero.mp (hzero' ▸ hle)) b hb hne with hacked | ⟨q, hq, rfl⟩
        · exact .inl hacked
        · rcases hkept hzero' q hq with hacked | ⟨q', hq', hqq⟩
          · exact .inl hacked
          · rw [htodo, List.nil_append] at hq'
            exact .inr ⟨q', hq', hqq⟩
  | crash =>
    dsimp only [step, acknowledged]
    rw [List.append_nil]
    exact ⟨h.saved, fun _ hf => nomatch hf⟩

/-! ### Nothing left to send -/

/-- The last observation shows the positions, and no batch has been sent or waits to be. -/
structure Silent (positions : List ObservedMasterPosition) (s : State) : Prop where
  observed : s.spool.lastSnapshot = snapshot positions
  pending : s.spool.pending = []
  flushing : ∀ f, s.flush = some f →
    f.loaded.lastSnapshot = snapshot positions ∧ f.todo = [] ∧ f.stillPending = []
  sent : s.sent = []

def ShowsAgain (positions : List ObservedMasterPosition) : Action → Prop
  | .observe _ _ positions' => positions' = positions
  | _ => True

lemma unseen_refl (p : Option ObservedPosition) : Unseen p p := by
  cases p with
  | none => rfl
  | some p =>
    have hlevel : ∀ v : Option ℚ, levelsDiffer v v = false := fun v => by
      simp [levelsDiffer, priceEps]
    have heps : ¬ volumeEps < 0 := by norm_num [volumeEps]
    simp [Unseen, ticketEvents, volumeEvents, levelEvents, slEvents, tpEvents, hlevel, heps]

lemma changedTickets_eq_nil (h : st.lastSnapshot = snapshot positions) :
    changedTickets st positions = [] := by
  rw [List.eq_nil_iff_forall_not_mem]
  intro t ht
  refine mem_changedTickets.mp ht ?_
  rw [h]
  exact unseen_refl _

lemma Silent.observe (h : Silent positions s) (cfg : Config) (now : Time) (batchId : String) :
    Silent positions { s with
      spool := (Emitter.observe cfg now batchId positions s.spool).1
      batches := s.batches ++ [(Emitter.observe cfg now batchId positions s.spool).2] } := by
  have hunchanged := changedTickets_eq_nil h.observed
  unfold Emitter.observe
  dsimp only
  rw [if_pos hunchanged]
  split_ifs
  · exact ⟨h.observed, h.pending, fun f hf => h.flushing f hf, h.sent⟩
  · exact ⟨rfl, h.pending, fun f hf => h.flushing f hf, h.sent⟩

theorem silent_step (h : Silent positions s) {a : Action} (ha : ShowsAgain positions a) :
    Silent positions (step crypto cfg s a) := by
  cases a with
  | observe now batchId positions' =>
    obtain rfl : positions' = positions := ha
    dsimp only [step]
    cases hflush : s.flush with
    | some f => exact h
    | none =>
      have hnext := h.observe cfg now batchId
      rwa [hflush] at hnext
  | beginFlush secret =>
    dsimp only [step]
    cases hflush : s.flush with
    | some f => exact h
    | none =>
      dsimp only
      split_ifs
      · exact h
      · refine ⟨h.observed, h.pending, fun f hf => ?_, h.sent⟩
        obtain rfl := Option.some.inj hf
        exact ⟨h.observed, h.pending, rfl⟩
  | send nonce now ok =>
    dsimp only [step]
    cases hflush : s.flush with
    | none => exact h
    | some f =>
      dsimp only
      rw [(h.flushing f hflush).2.1]
      exact h
  | saveFlush =>
    dsimp only [step]
    cases hflush : s.flush with
    | none => exact h
    | some f =>
      obtain ⟨hloaded, htodo, hstill⟩ := h.flushing f hflush
      dsimp only
      rw [htodo]
      exact ⟨hloaded, hstill, (fun _ hf => nomatch hf), h.sent⟩
  | crash => exact ⟨h.observed, h.pending, (fun _ hf => nomatch hf), h.sent⟩

end Emitter
end GuvFX
