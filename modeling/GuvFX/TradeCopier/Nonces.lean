/-
# Nonces are used once

Requests are verified and burn their nonces, prunes delete expired nonces, and the clock goes on.  A
request reads the clock when it is verified and inserts its nonce later, a prune reads the clock
when it begins and deletes later; everything else may move in between.

A nonce that has been deleted can only come back with a request that was verified before the
deletion, or that is another request under the same nonce.  Where neither happens, every nonce is
accepted at most once.
-/
import GuvFX.TradeCopier.Ingestion

namespace GuvFX
namespace Ingestion

open Runs

variable {π : Type*} {crypto : Crypto π}

structure NonceRow where
  nonce : String
  expiresAt : Time
  deriving DecidableEq, Repr

/-- A verified request that has not burned its nonce yet. -/
structure Pending where
  id : ℕ
  nonce : String
  expiry : Time
  deriving DecidableEq, Repr

/-- A prune that has read the clock and has not deleted yet. -/
structure Prune where
  id : ℕ
  cutoff : Time
  deriving DecidableEq, Repr

/-- What happened to a nonce. -/
inductive Moment where
  | accepted (nonce : String) (expiry : Time)
  | pruned (nonce : String)
  deriving DecidableEq, Repr

structure State where
  clock : Time
  nonces : List NonceRow
  pending : List Pending
  prunes : List Prune
  history : List Moment

def init (clock : Time) : State := ⟨clock, [], [], [], []⟩

/-- The steps of the system. -/
inductive Action (π : Type*) where
  | tick (now : Time)
  /-- A request arrives, with the keys of the moment, and is verified. -/
  | receive (id : ℕ) (keyring : String → Option String) (envelope : Envelope π)
  | burn (id : ℕ)
  /-- A request or a prune breaks off. -/
  | abort (id : ℕ)
  | pruneBegin (id : ℕ) (marginSeconds : ℕ)
  | pruneDelete (id : ℕ)

def nonceBurn (nonces : List NonceRow) (nonce : String) (expiry : Time) : Option (List NonceRow) :=
  if nonces.any fun row => row.nonce = nonce then none
  else some (nonces ++ [⟨nonce, fromTimestamp expiry⟩])

def Prune.deletes (q : Prune) (row : NonceRow) : Bool := row.expiresAt < q.cutoff

def step (crypto : Crypto π) (s : State) : Action π → State
  | .tick now => if s.clock ≤ now then { s with clock := now } else s
  | .receive id keyring envelope =>
    match verifyIngestRequest crypto keyring s.clock envelope with
    | .error _ => s
    | .ok v => { s with pending := s.pending ++ [⟨id, v.nonce, v.expiry⟩] }
  | .burn id =>
    match s.pending.find? fun r => r.id = id with
    | none => s
    | some r =>
      let rest := s.pending.erase r
      match nonceBurn s.nonces r.nonce r.expiry with
      | none => { s with pending := rest }
      | some nonces =>
        { s with
          nonces, pending := rest
          history := s.history ++ [.accepted r.nonce r.expiry] }
  | .abort id =>
    { s with
      pending := s.pending.filter fun r => r.id ≠ id
      prunes := s.prunes.filter fun q => q.id ≠ id }
  | .pruneBegin id marginSeconds =>
    { s with prunes := s.prunes ++ [⟨id, timezoneNow s.clock - marginSeconds⟩] }
  | .pruneDelete id =>
    match s.prunes.find? fun q => q.id = id with
    | none => s
    | some q =>
      { s with
        nonces := s.nonces.filter fun row => !q.deletes row
        prunes := s.prunes.erase q
        history := s.history ++ (s.nonces.filter q.deletes).map fun row => .pruned row.nonce }

/-! ### What a step can do -/

variable {s : State}

/-- The effects of a step, with what enables each of them. -/
inductive Effect (crypto : Crypto π) (s : State) : Action π → State → Prop where
  | stutter (a : Action π) : Effect crypto s a s
  | tick (now : Time) (hnow : s.clock ≤ now) : Effect crypto s (.tick now) { s with clock := now }
  | receive (id : ℕ) (keyring : String → Option String) (envelope : Envelope π) (v : Verified π)
      (hverify : verifyIngestRequest crypto keyring s.clock envelope = .ok v) :
      Effect crypto s (.receive id keyring envelope)
        { s with pending := s.pending ++ [⟨id, v.nonce, v.expiry⟩] }
  | fewer (a : Action π) (pending : List Pending) (prunes : List Prune)
      (hpending : pending ⊆ s.pending) (hprunes : prunes ⊆ s.prunes) :
      Effect crypto s a { s with pending, prunes }
  | burn (id : ℕ) (r : Pending) (hr : r ∈ s.pending)
      (hfresh : ∀ row ∈ s.nonces, row.nonce ≠ r.nonce) :
      Effect crypto s (.burn id)
        { s with
          nonces := s.nonces ++ [⟨r.nonce, fromTimestamp r.expiry⟩]
          pending := s.pending.erase r
          history := s.history ++ [.accepted r.nonce r.expiry] }
  | pruneBegin (id marginSeconds : ℕ) :
      Effect crypto s (.pruneBegin id marginSeconds)
        { s with prunes := s.prunes ++ [⟨id, timezoneNow s.clock - marginSeconds⟩] }
  | pruneDelete (id : ℕ) (q : Prune) (hq : s.prunes.find? (fun q => q.id = id) = some q) :
      Effect crypto s (.pruneDelete id)
        { s with
          nonces := s.nonces.filter fun row => !q.deletes row
          prunes := s.prunes.erase q
          history := s.history ++ (s.nonces.filter q.deletes).map fun row => .pruned row.nonce }

theorem step_effect (crypto : Crypto π) (s : State) (a : Action π) :
    Effect crypto s a (step crypto s a) := by
  cases a with
  | tick now =>
    simp only [step]
    split_ifs with hnow
    · exact .tick now hnow
    · exact .stutter _
  | receive id keyring envelope =>
    simp only [step]
    split
    · exact .stutter _
    · rename_i v hverify
      exact .receive id keyring envelope v hverify
  | burn id =>
    simp only [step]
    split
    · exact .stutter _
    · rename_i r hr
      have hmem := List.mem_of_find?_eq_some hr
      unfold nonceBurn
      by_cases hused : (s.nonces.any fun row => row.nonce = r.nonce) = true
      · rw [if_pos hused]
        exact .fewer _ _ _ (fun _ h => List.mem_of_mem_erase h) fun _ h => h
      · rw [if_neg hused]
        exact .burn id r hmem (by simpa using hused)
  | abort id =>
    exact .fewer _ _ _ (fun _ h => List.mem_of_mem_filter h) fun _ h => List.mem_of_mem_filter h
  | pruneBegin id marginSeconds => exact .pruneBegin id marginSeconds
  | pruneDelete id =>
    simp only [step]
    split
    · exact .stutter _
    · rename_i q hq
      exact .pruneDelete id q hq

/-! ### What consumes a nonce -/

/-- What is pending has passed its verification, at a time that the clock has reached. -/
def Passed (crypto : Crypto π) (s : State) : Prop :=
  ∀ r ∈ s.pending, ∃ keyring now, now ≤ s.clock ∧ ∃ envelope v,
    verifyIngestRequest crypto keyring now envelope = .ok v ∧ v.nonce = r.nonce ∧
      v.expiry = r.expiry

lemma passed_init (crypto : Crypto π) (clock : Time) : Passed crypto (init clock) := by
  intro r hr
  cases hr

lemma Passed.mono {s' : State} (h : Passed crypto s) (hclock : s.clock ≤ s'.clock)
    (hpending : s'.pending ⊆ s.pending) : Passed crypto s' := by
  intro r hr
  obtain ⟨keyring, now, hnow, hrest⟩ := h r (hpending hr)
  exact ⟨keyring, now, hnow.trans hclock, hrest⟩

lemma passed_step (h : Passed crypto s) (a : Action π) : Passed crypto (step crypto s a) := by
  have heff := step_effect crypto s a
  revert heff
  generalize step crypto s a = s'
  intro heff
  cases heff with
  | stutter => exact h
  | tick now hnow => exact h.mono hnow fun _ hr => hr
  | receive id keyring envelope v hverify =>
    intro r hr
    rcases List.mem_append.mp hr with hr | hr
    · exact h r hr
    · rw [List.mem_singleton.mp hr]
      exact ⟨keyring, s.clock, le_rfl, envelope, v, hverify, rfl, rfl⟩
  | fewer a pending prunes hpending hprunes => exact h.mono le_rfl hpending
  | burn id r hr hfresh => exact h.mono le_rfl fun _ hr' => List.mem_of_mem_erase hr'
  | pruneBegin id marginSeconds => exact h.mono le_rfl fun _ hr => hr
  | pruneDelete id q hq => exact h.mono le_rfl fun _ hr => hr

lemma verified_of_consumed (h : Passed crypto s) (a : Action π) {row : NonceRow}
    (hrow : row ∈ (step crypto s a).nonces) (hnew : row ∉ s.nonces) :
    ∃ keyring now envelope v, now ≤ s.clock ∧
      verifyIngestRequest crypto keyring now envelope = .ok v ∧ v.nonce = row.nonce := by
  have heff := step_effect crypto s a
  revert heff hrow
  generalize step crypto s a = s'
  intro hrow heff
  cases heff with
  | burn id r hr hfresh =>
    rcases List.mem_append.mp hrow with hold | hburned
    · exact absurd hold hnew
    · obtain ⟨keyring, now, hnow, envelope, v, hverify, hnonce, -⟩ := h r hr
      rw [List.mem_singleton.mp hburned]
      exact ⟨keyring, now, envelope, v, hnow, hverify, hnonce⟩
  | pruneDelete id q hq => exact absurd (List.mem_of_mem_filter hrow) hnew
  | _ => exact absurd hrow hnew

/-! ### When nonces are used once -/

def MayFollow (earlier later : Moment) : Prop :=
  ∀ nonce expiry, later = .accepted nonce expiry →
    (∀ e, earlier ≠ .accepted nonce e) ∧ earlier ≠ .pruned nonce

/-- Every nonce is accepted at most once, and never after it was pruned. -/
def SingleUse (s : State) : Prop := s.history.Pairwise MayFollow

/-- The condition on a step.  A verified request is not another request under an accepted nonce, and
a prune deletes no nonce of a request that is pending. -/
def cleanStep (crypto : Crypto π) (s : State) : Action π → Bool
  | .receive _ keyring envelope =>
    match verifyIngestRequest crypto keyring s.clock envelope with
    | .error _ => true
    | .ok v => s.history.all fun m =>
        match m with
        | .accepted nonce expiry => nonce ≠ v.nonce ∨ expiry = v.expiry
        | .pruned _ => true
  | .pruneDelete id =>
    (s.prunes.find? fun q => q.id = id).all fun q =>
      s.nonces.all fun row => !q.deletes row || s.pending.all fun r => r.nonce ≠ row.nonce
  | _ => true

/-- What the clean steps keep. -/
structure Inv (s : State) : Prop where
  singleUse : SingleUse s
  /-- An accepted nonce is in the table, or it has expired and no pending request carries it. -/
  kept : ∀ nonce expiry, .accepted nonce expiry ∈ s.history →
    ⟨nonce, fromTimestamp expiry⟩ ∈ s.nonces ∨
      expiry < s.clock ∧ ∀ r ∈ s.pending, r.nonce ≠ nonce
  pruned : ∀ nonce, .pruned nonce ∈ s.history → ∃ expiry, .accepted nonce expiry ∈ s.history
  rows : ∀ row ∈ s.nonces, ∃ expiry, .accepted row.nonce expiry ∈ s.history
  prunes : ∀ q ∈ s.prunes, q.cutoff ≤ timezoneNow s.clock

lemma inv_init (clock : Time) : Inv (init clock) where
  singleUse := .nil
  kept _ _ h := nomatch h
  pruned _ h := nomatch h
  rows _ h := nomatch h
  prunes _ h := nomatch h

lemma timezoneNow_mono {clock clock' : Time} (h : clock ≤ clock') :
    timezoneNow clock ≤ timezoneNow clock' := by
  unfold timezoneNow
  have hfloor : ⌊clock * 10 ^ 6⌋ ≤ ⌊clock' * 10 ^ 6⌋ := by
    refine Int.floor_le_floor ?_
    exact mul_le_mul_of_nonneg_right h (by norm_num)
  have hcast : (⌊clock * 10 ^ 6⌋ : ℚ) ≤ ⌊clock' * 10 ^ 6⌋ := by exact_mod_cast hfloor
  exact div_le_div_of_nonneg_right hcast (by norm_num)

lemma Inv.mono {s' : State} (h : Inv s) (hclock : s.clock ≤ s'.clock)
    (hnonces : s'.nonces = s.nonces) (hhistory : s'.history = s.history)
    (hpending : s'.pending ⊆ s.pending) (hprunes : s'.prunes ⊆ s.prunes) : Inv s' where
  singleUse := by
    rw [SingleUse, hhistory]
    exact h.singleUse
  kept := by
    rw [hhistory, hnonces]
    intro nonce expiry haccepted
    rcases h.kept nonce expiry haccepted with hrow | ⟨hexpired, hnone⟩
    · exact .inl hrow
    · exact .inr ⟨hexpired.trans_le hclock, fun r hr => hnone r (hpending hr)⟩
  pruned := by
    rw [hhistory]
    exact h.pruned
  rows := by
    rw [hnonces, hhistory]
    exact h.rows
  prunes q hq := (h.prunes q (hprunes hq)).trans (timezoneNow_mono hclock)

lemma Inv.fresh_of_burn (h : Inv s) {r : Pending} (hr : r ∈ s.pending)
    (hfresh : ∀ row ∈ s.nonces, row.nonce ≠ r.nonce) :
    (∀ e, .accepted r.nonce e ∉ s.history) ∧ .pruned r.nonce ∉ s.history := by
  have haccepted : ∀ e, .accepted r.nonce e ∉ s.history := by
    intro e he
    rcases h.kept r.nonce e he with hrow | ⟨-, hnone⟩
    · exact hfresh _ hrow rfl
    · exact hnone r hr rfl
  refine ⟨haccepted, fun hpruned => ?_⟩
  obtain ⟨e, he⟩ := h.pruned r.nonce hpruned
  exact haccepted e he

lemma inv_step (h : Inv s) (a : Action π) (hclean : cleanStep crypto s a = true) :
    Inv (step crypto s a) := by
  have heff := step_effect crypto s a
  revert heff
  generalize step crypto s a = s'
  intro heff
  cases heff with
  | stutter => exact h
  | tick now hnow => exact h.mono hnow rfl rfl (fun _ hr => hr) fun _ hq => hq
  | fewer a pending prunes hpending hprunes => exact h.mono le_rfl rfl rfl hpending hprunes
  | receive id keyring envelope v hverify =>
    obtain ⟨hnow, -⟩ := of_verifyIngestRequest hverify
    refine { h with kept := fun nonce expiry haccepted => ?_ }
    rcases h.kept nonce expiry haccepted with hrow | ⟨hexpired, hnone⟩
    · exact .inl hrow
    · refine .inr ⟨hexpired, fun r hr => ?_⟩
      rcases List.mem_append.mp hr with hr | hr
      · exact hnone r hr
      · -- a request under this nonce would have expired
        rw [List.mem_singleton.mp hr]
        rintro rfl
        simp only [cleanStep, hverify, List.all_eq_true] at hclean
        have hsame := of_decide_eq_true (hclean _ haccepted)
        rcases hsame with hne | heq
        · exact hne rfl
        · rw [heq] at hexpired
          exact absurd hnow (not_le.mpr hexpired)
  | burn id r hr hfresh =>
    obtain ⟨haccepted, hpruned⟩ := h.fresh_of_burn hr hfresh
    constructor
    · refine List.pairwise_append.mpr ⟨h.singleUse, List.pairwise_singleton _ _, ?_⟩
      intro m hm m' hm' nonce expiry heq
      rw [List.mem_singleton.mp hm'] at heq
      obtain ⟨rfl, rfl⟩ : r.nonce = nonce ∧ r.expiry = expiry := by simpa using heq
      refine ⟨?_, ?_⟩
      · rintro e rfl
        exact haccepted e hm
      · rintro rfl
        exact hpruned hm
    · intro nonce expiry hmem
      rcases List.mem_append.mp hmem with hold | hnew
      · rcases h.kept nonce expiry hold with hrow | ⟨hexpired, hnone⟩
        · exact .inl (List.mem_append_left _ hrow)
        · exact .inr ⟨hexpired, fun r' hr' => hnone r' (List.mem_of_mem_erase hr')⟩
      · obtain ⟨rfl, rfl⟩ : nonce = r.nonce ∧ expiry = r.expiry := by
          simpa using List.mem_singleton.mp hnew
        exact .inl (List.mem_append_right _ (List.mem_singleton.mpr rfl))
    · intro nonce hmem
      have hold : .pruned nonce ∈ s.history := by simpa using hmem
      obtain ⟨expiry, he⟩ := h.pruned nonce hold
      exact ⟨expiry, List.mem_append_left _ he⟩
    · intro row hrow
      rcases List.mem_append.mp hrow with hold | hnew
      · obtain ⟨expiry, he⟩ := h.rows row hold
        exact ⟨expiry, List.mem_append_left _ he⟩
      · rw [List.mem_singleton.mp hnew]
        exact ⟨r.expiry, by simp⟩
    · exact h.prunes
  | pruneBegin id marginSeconds =>
    refine { h with prunes := fun q hq => ?_ }
    rcases List.mem_append.mp hq with hq | hq
    · exact h.prunes q hq
    · rw [List.mem_singleton.mp hq]
      exact sub_le_self _ (Nat.cast_nonneg marginSeconds)
  | pruneDelete id q hq =>
    have hcutoff := h.prunes q (List.mem_of_find?_eq_some hq)
    have hidle : ∀ row ∈ s.nonces, q.deletes row = true → ∀ r ∈ s.pending, r.nonce ≠ row.nonce := by
      intro row hrow hdel r hr
      simp only [cleanStep, hq, Option.all_some, List.all_eq_true] at hclean
      have hrow' := hclean row hrow
      rw [hdel, Bool.not_true, Bool.false_or, List.all_eq_true] at hrow'
      exact of_decide_eq_true (hrow' r hr)
    constructor
    · refine List.pairwise_append.mpr ⟨h.singleUse, ?_, ?_⟩
      · refine List.pairwise_map.mpr (List.pairwise_of_forall fun row row' nonce expiry heq => ?_)
        cases heq
      · intro m hm m' hm' nonce expiry heq
        obtain ⟨row, -, rfl⟩ := List.mem_map.mp hm'
        cases heq
    · intro nonce expiry hmem
      have hold : .accepted nonce expiry ∈ s.history := by simpa using hmem
      rcases h.kept nonce expiry hold with hrow | hgone
      · by_cases hdel : q.deletes ⟨nonce, fromTimestamp expiry⟩ = true
        · refine .inr ⟨lt_of_fromTimestamp_lt (of_decide_eq_true hdel) hcutoff, ?_⟩
          exact hidle _ hrow hdel
        · exact .inl (List.mem_filter.mpr ⟨hrow, by simpa using hdel⟩)
      · exact .inr hgone
    · intro nonce hmem
      rcases List.mem_append.mp hmem with hold | hnew
      · obtain ⟨expiry, he⟩ := h.pruned nonce hold
        exact ⟨expiry, List.mem_append_left _ he⟩
      · obtain ⟨row, hrow, heq⟩ := List.mem_map.mp hnew
        obtain ⟨expiry, he⟩ := h.rows row (List.mem_of_mem_filter hrow)
        obtain rfl : row.nonce = nonce := by simpa using heq
        exact ⟨expiry, List.mem_append_left _ he⟩
    · intro row hrow
      obtain ⟨expiry, he⟩ := h.rows row (List.mem_of_mem_filter hrow)
      exact ⟨expiry, List.mem_append_left _ he⟩
    · exact fun q' hq' => h.prunes q' (List.mem_of_mem_erase hq')

/-- A digest and a keyed hash for payloads that are numbers. -/
def sampleCrypto : Crypto ℕ where
  digest n := toString n
  mac secret signed := secret ++ signed.nonce.getD "" ++ signed.payloadDigest.getD ""

def sampleKeyring (keyId : String) : Option String :=
  if keyId = defaultKeyId then some "key" else none

/-- A request that is valid from the hundredth second on, for half a minute. -/
def sampleEnvelope : Envelope ℕ := signIngestRequest sampleCrypto 1 "key" "n" 100 7

/-- The request is accepted, it is refused when it is sent again, and its nonce is pruned. -/
def cleanRun : List (Action ℕ) :=
  [.receive 1 sampleKeyring sampleEnvelope, .burn 1, .tick 130,
    .receive 2 sampleKeyring sampleEnvelope, .burn 2, .tick 131, .pruneBegin 3 0, .pruneDelete 3,
    .receive 4 sampleKeyring sampleEnvelope, .burn 4]

/-- The request is sent again in the last moment of its validity, and the prune comes before its
nonce is burned. -/
def prunedInBetween : List (Action ℕ) :=
  [.receive 1 sampleKeyring sampleEnvelope, .burn 1, .tick 130,
    .receive 2 sampleKeyring sampleEnvelope, .tick 131, .pruneBegin 3 0, .pruneDelete 3, .burn 2]

end Ingestion
end GuvFX
