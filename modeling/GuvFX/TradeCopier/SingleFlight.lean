/-
# Single flight of the observer

Any number of sessions run `observe_master` on one master, pass after pass.  A pass claims the
lease under a fresh token, reads the positions from the bridge outside any transaction, records
what it read, and releases the lease in the end.  Between two steps of a pass every other session
may move, the clock may show anything, and a session may crash.

The history keeps the order in which leases were claimed, reads were begun and observations were
committed.  Only the owner of the lease commits, so the history is fenced.
-/
import Mathlib.Logic.Function.Basic
import GuvFX.Lib.Lease
import GuvFX.Lib.Runs
import GuvFX.TradeCopier.Observer

namespace GuvFX
namespace Observer

open Lease Runs
open Reconcile (MasterReadResult)

/-- Where a session stands within a pass of `observe_master`. -/
inductive Pc where
  | idle
  /-- It owns the lease and has not begun its remote read. -/
  | claimed (token : String)
  | reading (token : String)
  /-- It has an accepted read and is about to record it. -/
  | fetched (token : String) (result : MasterReadResult)
  /-- It is about to release the lease. -/
  | finishing (token : String)
  deriving DecidableEq, Repr

def Pc.token : Pc → Option String
  | .idle => none
  | .claimed t => some t
  | .reading t => some t
  | .fetched t _ => some t
  | .finishing t => some t

/-- The sessions, the row of the master, and the history of the passes. -/
structure State where
  master : Master
  pc : ℕ → Pc
  history : List (Moment String)

def init (m : Master) : State := { master := m, pc := fun _ => .idle, history := [] }

/-- The steps of the system. -/
inductive Action where
  /-- Session `p` starts a pass under a token that no pass has had. -/
  | claim (p : ℕ) (token : { s : String // s ≠ "" }) (seconds : ℕ) (now : Time)
  | beginRead (p : ℕ)
  /-- The read returns, or raises an error. -/
  | endRead (p : ℕ) (read : Option MasterReadResult)
  | record (p : ℕ) (now : Time)
  /-- The recording fails at some point and is rolled back. -/
  | rollback (p : ℕ)
  | release (p : ℕ)
  | crash (p : ℕ)

/-- Session `p` moves to `pc`. -/
def State.goto (s : State) (p : ℕ) (pc : Pc) : State :=
  { s with pc := Function.update s.pc p pc }

def step (s : State) : Action → State
  | .claim p token seconds now =>
    if s.pc p = .idle ∧ token.val ∉ claims s.history then
      match claimObservationLease now token.val seconds s.master with
      | none => s
      | some m =>
        { s.goto p (.claimed token.val) with
          master := m, history := s.history ++ [.claimed token.val] }
    else s
  | .beginRead p =>
    match s.pc p with
    | .claimed t => { s.goto p (.reading t) with history := s.history ++ [.began t] }
    | _ => s
  | .endRead p read =>
    match s.pc p with
    | .reading t =>
      match read with
      | none => s.goto p (.finishing t)
      | some result => s.goto p (if result.ok then .fetched t result else .finishing t)
    | _ => s
  | .record p now =>
    match s.pc p with
    | .fetched t result =>
      match recordObservation now result (some t) s.master with
      | .ok (m, .recorded _ _) =>
        { s.goto p (.finishing t) with master := m, history := s.history ++ [.committed t] }
      | _ => s.goto p (.finishing t)
    | _ => s
  | .rollback p =>
    match s.pc p with
    | .fetched t _ => s.goto p (.finishing t)
    | _ => s
  | .release p =>
    match s.pc p with
    | .finishing t => { s.goto p .idle with master := releaseObservationLease t s.master }
    | _ => s
  | .crash p => s.goto p .idle

/-! ### What a step can do -/

/-- The effects of a step on the lease, the passes and the history. -/
inductive Effect (s : State) : State → Prop where
  | stutter : Effect s s
  | claim (p : ℕ) (t : String) (m : Master) (hpc : s.pc p = .idle) (hfresh : t ∉ claims s.history)
      (hne : t ≠ "") (hm : m.observationLeaseToken = t) :
      Effect s { s.goto p (.claimed t) with
        master := m, history := s.history ++ [.claimed t] }
  | beginRead (p : ℕ) (t : String) (hpc : s.pc p = .claimed t) :
      Effect s { s.goto p (.reading t) with history := s.history ++ [.began t] }
  | endRead (p : ℕ) (t : String) (result : MasterReadResult) (hpc : s.pc p = .reading t) :
      Effect s (s.goto p (.fetched t result))
  | finish (p : ℕ) (t : String) (hpc : (s.pc p).token = some t) : Effect s (s.goto p (.finishing t))
  | commit (p : ℕ) (t : String) (result : MasterReadResult) (m : Master)
      (hpc : s.pc p = .fetched t result) (howner : s.master.observationLeaseToken = t)
      (hm : m.observationLeaseToken = t) :
      Effect s { s.goto p (.finishing t) with
        master := m, history := s.history ++ [.committed t] }
  | leave (p : ℕ) (m : Master)
      (hm : m.observationLeaseToken = s.master.observationLeaseToken ∨
        m.observationLeaseToken = "") : Effect s { s.goto p .idle with master := m }

lemma owner_of_recorded {now : Time} {result : MasterReadResult} {t : String} {m m' : Master}
    {events : ℕ} {first : Bool}
    (h : recordObservation now result (some t) m = .ok (m', .recorded events first)) :
    m.observationLeaseToken = t := by
  rcases recordObservation_cases h with ⟨-, hout⟩ | ⟨hlease, -⟩
  · rcases hout with hout | hout <;> cases hout
  · have hkept := hlease t rfl
    simp only [leaseLost, decide_eq_false_iff_not, not_or, not_not] at hkept
    exact hkept.1

lemma releaseObservationLease_token (t : String) (m : Master) :
    (releaseObservationLease t m).observationLeaseToken = m.observationLeaseToken ∨
      (releaseObservationLease t m).observationLeaseToken = "" := by
  unfold releaseObservationLease
  split_ifs
  · exact Or.inr rfl
  · exact Or.inl rfl

/-- **Every step has one of the effects.** -/
theorem step_effect (s : State) (a : Action) : Effect s (step s a) := by
  cases a with
  | claim p token seconds now =>
    simp only [step]
    split_ifs with hidle
    · cases hclaim : claimObservationLease now token.val seconds s.master with
      | none => exact .stutter
      | some m =>
        obtain ⟨-, hm⟩ := claimObservationLease_cases hclaim
        exact .claim p token.val m hidle.1 hidle.2 token.property (by rw [hm])
    · exact .stutter
  | beginRead p =>
    cases hpc : s.pc p with
    | claimed t => simpa [step, hpc] using Effect.beginRead p t hpc
    | _ => simpa [step, hpc] using Effect.stutter
  | endRead p read =>
    cases hpc : s.pc p with
    | reading t =>
      have hfinish : Effect s (s.goto p (.finishing t)) := .finish p t (by rw [hpc]; rfl)
      cases read with
      | none => simpa [step, hpc] using hfinish
      | some result =>
        cases hok : result.ok with
        | false => simpa [step, hpc, hok] using hfinish
        | true => simpa [step, hpc, hok] using Effect.endRead p t result hpc
    | _ => simpa [step, hpc] using Effect.stutter
  | record p now =>
    cases hpc : s.pc p with
    | fetched t result =>
      have hfinish : Effect s (s.goto p (.finishing t)) := .finish p t (by rw [hpc]; rfl)
      simp only [step, hpc]
      split
      · rename_i m events first hrec
        have howner := owner_of_recorded hrec
        exact .commit p t result m hpc howner ((recordObservation_lease hrec).trans howner)
      · exact hfinish
    | _ => simpa [step, hpc] using Effect.stutter
  | rollback p =>
    cases hpc : s.pc p with
    | fetched t result => simpa [step, hpc] using Effect.finish p t (by rw [hpc]; rfl)
    | _ => simpa [step, hpc] using Effect.stutter
  | release p =>
    cases hpc : s.pc p with
    | finishing t =>
      simpa [step, hpc] using Effect.leave p _ (releaseObservationLease_token t s.master)
    | _ => simpa [step, hpc] using Effect.stutter
  | crash p => exact .leave p s.master (Or.inl rfl)

/-! ### The invariant of the lease -/

/-- The tokens are distinct, and the owner of the lease is the party that claimed last. -/
structure LeaseInv (s : State) : Prop where
  claims_nodup : (claims s.history).Nodup
  fenced : Fenced s.history
  token_claimed : ∀ p t, (s.pc p).token = some t → t ∈ claims s.history ∧ t ≠ ""
  token_inj : ∀ p q t, (s.pc p).token = some t → (s.pc q).token = some t → p = q
  holds : ∀ p t, s.pc p = .claimed t → s.master.observationLeaseToken = t → Holds s.history t
  began : ∀ p t, (s.pc p = .reading t ∨ ∃ result, s.pc p = .fetched t result) →
    s.master.observationLeaseToken = t → Began s.history t

lemma leaseInv_init (m : Master) : LeaseInv (init m) where
  claims_nodup := List.nodup_nil
  fenced := fenced_nil
  token_claimed := by simp [init, Pc.token]
  token_inj := by simp [init, Pc.token]
  holds := by simp [init]
  began := by simp [init]

/-- The place of a session after session `p` has moved. -/
lemma goto_pc (s : State) (p q : ℕ) (pc : Pc) :
    (s.goto p pc).pc q = if q = p then pc else s.pc q := by
  simp [State.goto, Function.update_apply]

lemma Pc.token_of_working {pc : Pc} {t : String}
    (h : pc = .reading t ∨ ∃ result, pc = .fetched t result) : pc.token = some t := by
  rcases h with rfl | ⟨result, rfl⟩ <;> rfl

lemma LeaseInv.rest {s : State} (h : LeaseInv s) (p : ℕ) {pc : Pc} {m : Master}
    (hpc : pc = .idle ∨ ∃ t, pc = .finishing t ∧ (s.pc p).token = some t)
    (hm : m.observationLeaseToken = s.master.observationLeaseToken ∨
      m.observationLeaseToken = "") : LeaseInv { s.goto p pc with master := m } := by
  have htoken : ∀ q t, ((s.goto p pc).pc q).token = some t → (s.pc q).token = some t := by
    intro q t hq
    rw [goto_pc] at hq
    split_ifs at hq with hqp
    · rcases hpc with rfl | ⟨u, rfl, hu⟩
      · cases hq
      · rw [hqp, ← hq, hu]
        rfl
    · exact hq
  -- a session that is before its recording is another one, and its token is not empty
  have hother : ∀ q, (∃ t, (s.goto p pc).pc q = .claimed t ∨ (s.goto p pc).pc q = .reading t ∨
      ∃ result, (s.goto p pc).pc q = .fetched t result) → (s.goto p pc).pc q = s.pc q := by
    rintro q ⟨t, hq⟩
    rw [goto_pc] at hq ⊢
    split_ifs at hq ⊢ with hqp
    · rcases hpc with rfl | ⟨u, rfl, -⟩ <;> simp at hq
    · rfl
  have howner : ∀ q t, (s.pc q).token = some t → m.observationLeaseToken = t →
      s.master.observationLeaseToken = t := by
    intro q t hq hmt
    rcases hm with hm | hm
    · rw [← hm, hmt]
    · exact absurd (hmt.symm.trans hm) (h.token_claimed q t hq).2
  exact {
    claims_nodup := h.claims_nodup
    fenced := h.fenced
    token_claimed := fun q t hq => h.token_claimed q t (htoken q t hq)
    token_inj := fun q r t hq hr => h.token_inj q r t (htoken q t hq) (htoken r t hr)
    holds := by
      intro q t hq hmt
      have hsame := hother q ⟨t, Or.inl hq⟩
      have hpcq : s.pc q = .claimed t := hsame.symm.trans hq
      exact h.holds q t hpcq (howner q t (by rw [hpcq]; rfl) hmt)
    began := by
      intro q t hq hmt
      have hsame := hother q ⟨t, Or.inr hq⟩
      have hpcq : s.pc q = .reading t ∨ ∃ result, s.pc q = .fetched t result := by
        rw [← hsame]; exact hq
      exact h.began q t hpcq (howner q t (Pc.token_of_working hpcq) hmt) }

lemma LeaseInv.claim {s : State} (h : LeaseInv s) (p : ℕ) {t : String} {m : Master}
    (hfresh : t ∉ claims s.history) (hne : t ≠ "") (hm : m.observationLeaseToken = t) :
    LeaseInv { s.goto p (.claimed t) with master := m, history := s.history ++ [.claimed t] } := by
  have htoken : ∀ q u, ((s.goto p (.claimed t)).pc q).token = some u →
      (q = p ∧ u = t) ∨ (s.pc q).token = some u := by
    intro q u hq
    rw [goto_pc] at hq
    split_ifs at hq with hqp
    · exact Or.inl ⟨hqp, (Option.some.inj hq).symm⟩
    · exact Or.inr hq
  have hnew : ∀ q u, (s.pc q).token = some u → u ≠ t :=
    fun q u hq heq => hfresh (heq ▸ (h.token_claimed q u hq).1)
  exact {
    claims_nodup := by
      rw [claims_concat_claimed, ← List.concat_eq_append]
      exact h.claims_nodup.concat hfresh
    fenced := h.fenced.concat fun u hu => by cases hu
    token_claimed := by
      intro q u hq
      rw [claims_concat_claimed]
      rcases htoken q u hq with ⟨-, rfl⟩ | hold
      · exact ⟨by simp, hne⟩
      · exact ⟨List.mem_append_left _ (h.token_claimed q u hold).1, (h.token_claimed q u hold).2⟩
    token_inj := by
      intro q r u hq hr
      rcases htoken q u hq with ⟨rfl, rfl⟩ | holdq
      · rcases htoken r u hr with ⟨rfl, -⟩ | holdr
        · rfl
        · exact absurd rfl (hnew r u holdr)
      · rcases htoken r u hr with ⟨rfl, rfl⟩ | holdr
        · exact absurd rfl (hnew q u holdq)
        · exact h.token_inj q r u holdq holdr
    holds := by
      intro q u hq hmu
      obtain rfl : u = t := hmu.symm.trans hm
      exact holds_claimed s.history u
    began := by
      intro q u hq hmu
      obtain rfl : u = t := hmu.symm.trans hm
      rcases htoken q u (Pc.token_of_working hq) with ⟨rfl, -⟩ | hold
      · simp [goto_pc] at hq
      · exact absurd rfl (hnew q u hold) }

lemma LeaseInv.beginRead {s : State} (h : LeaseInv s) {p : ℕ} {t : String}
    (hpc : s.pc p = .claimed t) :
    LeaseInv { s.goto p (.reading t) with history := s.history ++ [.began t] } := by
  have htoken : ∀ q, ((s.goto p (.reading t)).pc q).token = (s.pc q).token := by
    intro q
    rw [goto_pc]
    split_ifs with hqp
    · rw [hqp, hpc]
      rfl
    · rfl
  exact {
    claims_nodup := by rw [claims_concat_began]; exact h.claims_nodup
    fenced := h.fenced.concat fun u hu => by cases hu
    token_claimed := by
      intro q u hq
      rw [claims_concat_began]
      exact h.token_claimed q u ((htoken q).symm.trans hq)
    token_inj := fun q r u hq hr =>
      h.token_inj q r u ((htoken q).symm.trans hq) ((htoken r).symm.trans hr)
    holds := by
      intro q u hq hmu
      rw [goto_pc] at hq
      split_ifs at hq
      exact (h.holds q u hq hmu).began t
    began := by
      intro q u hq hmu
      rw [goto_pc] at hq
      split_ifs at hq with hqp
      · obtain rfl : t = u := by simpa using hq
        exact (h.holds p t hpc hmu).began_self
      · exact (h.began q u hq hmu).began t }

lemma LeaseInv.endRead {s : State} (h : LeaseInv s) {p : ℕ} {t : String}
    (hpc : s.pc p = .reading t) (result : MasterReadResult) :
    LeaseInv (s.goto p (.fetched t result)) := by
  have htoken : ∀ q, ((s.goto p (.fetched t result)).pc q).token = (s.pc q).token := by
    intro q
    rw [goto_pc]
    split_ifs with hqp
    · rw [hqp, hpc]
      rfl
    · rfl
  exact {
    claims_nodup := h.claims_nodup
    fenced := h.fenced
    token_claimed := fun q u hq => h.token_claimed q u ((htoken q).symm.trans hq)
    token_inj := fun q r u hq hr =>
      h.token_inj q r u ((htoken q).symm.trans hq) ((htoken r).symm.trans hr)
    holds := by
      intro q u hq hmu
      rw [goto_pc] at hq
      split_ifs at hq
      exact h.holds q u hq hmu
    began := by
      intro q u hq hmu
      rw [goto_pc] at hq
      split_ifs at hq with hqp
      · obtain rfl : t = u := by simpa using hq
        exact h.began p t (Or.inl hpc) hmu
      · exact h.began q u hq hmu }

lemma LeaseInv.commit {s : State} (h : LeaseInv s) {p : ℕ} {t : String} {result : MasterReadResult}
    {m : Master} (hpc : s.pc p = .fetched t result)
    (howner : s.master.observationLeaseToken = t) (hm : m.observationLeaseToken = t) :
    LeaseInv { s.goto p (.finishing t) with
      master := m, history := s.history ++ [.committed t] } := by
  have hbegan : Began s.history t := h.began p t (Or.inr ⟨result, hpc⟩) howner
  have hptoken : (s.pc p).token = some t := by rw [hpc]; rfl
  have hrest : LeaseInv { s.goto p (.finishing t) with master := m } :=
    h.rest p (Or.inr ⟨t, rfl, hptoken⟩) (Or.inl (hm.trans howner.symm))
  -- no other session has the token of the owner, so nobody else can record now
  have halone : ∀ q u, ((s.goto p (.finishing t)).pc q).token = some u →
      m.observationLeaseToken = u → (s.goto p (.finishing t)).pc q = .finishing t := by
    intro q u hq hmu
    obtain rfl : u = t := hmu.symm.trans hm
    have hqp : q = p := hrest.token_inj q p u hq (by simp [goto_pc, Pc.token])
    simp [hqp, goto_pc]
  exact {
    claims_nodup := by rw [claims_concat_committed]; exact h.claims_nodup
    fenced := by
      refine h.fenced.concat fun u hu => ?_
      obtain rfl : t = u := Moment.committed.inj hu
      exact hbegan
    token_claimed := by
      intro q u hq
      rw [claims_concat_committed]
      exact hrest.token_claimed q u hq
    token_inj := hrest.token_inj
    holds := by
      intro q u hq hmu
      have hfin := halone q u (congrArg Pc.token hq) hmu
      rw [hq] at hfin
      cases hfin
    began := by
      intro q u hq hmu
      have hfin := halone q u (Pc.token_of_working hq) hmu
      rw [hfin] at hq
      simp at hq }

lemma leaseInv_step (s : State) (a : Action) (h : LeaseInv s) : LeaseInv (step s a) := by
  have heffect := step_effect s a
  generalize step s a = s' at heffect
  cases heffect with
  | stutter => exact h
  | claim p t m hpc hfresh hne hm => exact h.claim p hfresh hne hm
  | beginRead p t hpc => exact h.beginRead hpc
  | endRead p t result hpc => exact h.endRead hpc result
  | finish p t hpc => exact h.rest p (Or.inr ⟨t, rfl, hpc⟩) (Or.inl rfl)
  | commit p t result m hpc howner hm => exact h.commit hpc howner hm
  | leave p m hm => exact h.rest p (Or.inl rfl) hm

/-- **Single flight.**  In every run, of two passes that commit an observation the later one
began its remote read after the earlier one had committed; and a pass whose lease was taken over
by another pass never commits. -/
theorem observations_single_flight (m : Master) (as : List Action) :
    (∀ before s mid t after,
      (run step (init m) as).history = before ++ .committed s :: mid ++ .committed t :: after →
        Moment.began t ∈ mid) ∧
    (∀ before s mid t after,
      (run step (init m) as).history = before ++ .claimed s :: mid ++ .claimed t :: after →
        Moment.committed s ∉ after) := by
  have h := run_invariant leaseInv_step (leaseInv_init m) as
  constructor
  · intro before s mid t after heq
    exact h.fenced.began_between heq
  · intro before s mid t after heq
    exact h.fenced.not_committed_after_takeover h.claims_nodup heq

end Observer
end GuvFX
