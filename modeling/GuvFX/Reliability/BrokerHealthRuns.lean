/-
# The life of a health row

The state machine keeps its promises in every run: a tombstoned account stays tombstoned, the
version counts the net transitions, and the resume signal stands only after a recovery.  The
evidence is another matter.  The watermark of an account is an id, and ids are drawn before the
attempts commit, so an attempt that commits below the watermark is never folded.
-/
import GuvFX.Reliability.BrokerHealth

namespace GuvFX
namespace BrokerHealth

open Runs

/-! ### One step of one row -/

lemma healthOf_save_self (s : State) (account : ℕ) (health : BrokerAccountHealth) :
    (s.save account (some health)).healthOf account = health := by
  dsimp only [State.healthOf, State.save]
  rw [Function.update_self, Option.getD_some]

variable {account id : ℕ}

lemma healthOf_save_of_ne (s : State) {other : ℕ} (h : other ≠ account)
    (health : BrokerAccountHealth) :
    (s.save account (some health)).healthOf other = s.healthOf other := by
  dsimp only [State.healthOf, State.save]
  rw [Function.update_of_ne h]

lemma attempts_save (s : State) (account : ℕ) (o : Option BrokerAccountHealth) :
    (s.save account o).attempts = s.attempts := by
  cases o <;> rfl

lemma save_moves {s : State} {health : BrokerAccountHealth}
    (h : Moves (s.healthOf account) health) (other : ℕ) :
    Moves (s.healthOf other) ((s.save account (some health)).healthOf other) := by
  by_cases hother : other = account
  · subst hother
    rw [healthOf_save_self]
    exact h
  · rw [healthOf_save_of_ne s hother]
    exact .refl _

lemma healthOf_of_some {s : State} {health : BrokerAccountHealth}
    (h : s.health account = some health) : s.healthOf account = health := by
  rw [State.healthOf, h, Option.getD_some]

lemma step_moves (s : State) (a : Action) (account : ℕ) :
    Moves (s.healthOf account) ((step s a).healthOf account) := by
  cases a with
  | tick | insertAttempt | commitAttempt => exact .refl _
  | recordValidationOutcome other call =>
    dsimp only [step]
    split_ifs
    · obtain ⟨r, hr, hmoves, -⟩ :=
        recordValidationOutcome_moves call (s.pendingAttempts other) (s.healthOf other)
      rw [hr]
      exact save_moves hmoves account
    · exact .refl _
  | sweepStale other call =>
    dsimp only [step]
    cases hrow : s.health other with
    | none => exact .refl _
    | some health =>
      dsimp only
      split_ifs
      · obtain ⟨r, hr, hmoves, -⟩ := sweepStale_moves call health
        rw [hr]
        rw [← healthOf_of_some hrow] at hmoves
        exact save_moves hmoves account
      · exact .refl _
  | invalidate other enabled =>
    dsimp only [step]
    cases hrow : s.health other with
    | none => exact .refl _
    | some health =>
      dsimp only
      split_ifs
      · have hmoves := (invalidate_moves health).1
        rw [← healthOf_of_some hrow] at hmoves ⊢
        exact save_moves hmoves account
      · exact .refl _

/-! ### The net transitions of a run -/

def netTransition (account : ℕ) (s : State) (a : Action) : Option (HealthState × HealthState) :=
  let old := (s.healthOf account).state
  let new := ((step s a).healthOf account).state
  if new = old then none else some (old, new)

/-- The row of an account agrees with the net transitions so far. -/
structure Traced (health : BrokerAccountHealth)
    (transitions : List (HealthState × HealthState)) : Prop where
  version : health.stateVersion = transitions.length
  resume : health.resumeEligible = true → health.state = .healthy ∧
    ∃ old : HealthState, old.pauses = true ∧ transitions.getLast? = some (old, .healthy)

lemma traced_run (now : Time) (as : List Action) (account : ℕ) :
    Traced ((run step (.initial now) as).healthOf account)
      (trace step (netTransition account) (.initial now) as) := by
  have hnone : ((State.initial now).healthOf account).resumeEligible = false := rfl
  refine run_history (Q := fun as (s : State) =>
    Traced (s.healthOf account) (trace step (netTransition account) (.initial now) as))
    ⟨rfl, fun hr => nomatch hnone.symm.trans hr⟩ ?_ as
  intro as a h
  rw [trace_concat]
  have hmoves := step_moves (run step (.initial now) as) a account
  generalize run step (.initial now) as = s at h hmoves ⊢
  dsimp only [netTransition]
  cases hmoves with
  | stay hstate hversion hresume =>
    rw [if_pos hstate, Option.toList_none, List.append_nil]
    refine ⟨by rw [hversion, h.version], fun hr => ?_⟩
    rw [hstate]
    exact h.resume (hresume hr)
  | net hstate hlive hversion hresume =>
    rw [if_neg hstate, Option.toList_some]
    refine ⟨by rw [hversion, h.version, List.length_append, List.length_singleton], fun hr => ?_⟩
    obtain ⟨hhealthy, hpauses⟩ := hresume hr
    refine ⟨hhealthy, (s.healthOf account).state, hpauses, ?_⟩
    rw [List.getLast?_append, hhealthy]
    rfl

lemma tombstoned_step (s : State) (a : Action) (account : ℕ)
    (h : (s.healthOf account).state = .tombstoned) :
    ((step s a).healthOf account).state = .tombstoned := by
  cases step_moves s a account with
  | stay hstate _ _ => rw [hstate, h]
  | net _ hlive _ _ => exact absurd h hlive

/-! ### The watermark -/

def Call.folds (call : Call) (health : BrokerAccountHealth) : Prop :=
  call.enabled = true ∧ call.disconnected = false ∧ health.state ≠ .tombstoned

instance (call : Call) (health : BrokerAccountHealth) : Decidable (call.folds health) :=
  inferInstanceAs (Decidable (_ ∧ _ ∧ _))

def foldedAttempts (s : State) (account : ℕ) : Action → List (ℕ × BrokerAccountValidationAttempt)
  | .recordValidationOutcome other call =>
    if other = account ∧ call.folds (s.healthOf account) then s.pendingAttempts account else []
  | .tick _ | .insertAttempt .. | .commitAttempt _ | .sweepStale .. | .invalidate .. => []

/-- The step folds the attempt `id` into the row of an account. -/
def folds (account id : ℕ) (s : State) (a : Action) : Bool :=
  id ∈ (foldedAttempts s account a).map Prod.fst

lemma mem_pendingAttempts {s : State} {attempt : BrokerAccountValidationAttempt} :
    (id, attempt) ∈ s.pendingAttempts account ↔ s.attempts.get id = some attempt ∧
      attempt.accountId = account ∧ attempt.committed = true ∧ s.watermark account < id := by
  rw [State.pendingAttempts, List.mem_insertionSort, Table.mem_filter, decide_eq_true_iff]

lemma folds_iff {s : State} {a : Action} :
    folds account id s a = true ↔ ∃ attempt, (id, attempt) ∈ foldedAttempts s account a := by
  simp [folds]

lemma mem_pendingAttempts_of_folded {s : State} {a : Action}
    {e : ℕ × BrokerAccountValidationAttempt} (h : e ∈ foldedAttempts s account a) :
    e ∈ s.pendingAttempts account := by
  cases a with
  | recordValidationOutcome other call =>
    dsimp only [foldedAttempts] at h
    split_ifs at h
    · exact h
    · cases h
  | _ => cases h

lemma of_folds {s : State} {a : Action} (h : folds account id s a = true) :
    s.watermark account < id ∧
      ∃ attempt, s.attempts.get id = some attempt ∧ attempt.committed = true := by
  obtain ⟨attempt, hmem⟩ := folds_iff.mp h
  obtain ⟨hget, -, hcommitted, hlt⟩ := mem_pendingAttempts.mp (mem_pendingAttempts_of_folded hmem)
  exact ⟨hlt, attempt, hget, hcommitted⟩

lemma watermark_save (s : State) (account other : ℕ) (health : BrokerAccountHealth) :
    (s.save account (some health)).watermark other =
      if account = other then health.lastConsumedAttemptId.getD 0 else s.watermark other := by
  rw [State.watermark]
  by_cases h : account = other
  · subst h
    rw [if_pos rfl, healthOf_save_self]
  · rw [if_neg h, healthOf_save_of_ne s (Ne.symm h), State.watermark]

lemma watermark_save_same {s : State} {health : BrokerAccountHealth}
    (h : health.lastConsumedAttemptId = (s.healthOf account).lastConsumedAttemptId) (other : ℕ) :
    (s.save account (some health)).watermark other = s.watermark other := by
  rw [watermark_save]
  split_ifs with hother
  · rw [h, ← hother, State.watermark]
  · rfl

lemma watermark_step (s : State) (a : Action) (account : ℕ) :
    (step s a).watermark account =
      ((foldedAttempts s account a).getLast?.map Prod.fst).getD (s.watermark account) := by
  cases a with
  | tick | insertAttempt | commitAttempt => rfl
  | sweepStale other call =>
    dsimp only [step, foldedAttempts]
    cases hrow : s.health other with
    | none => rfl
    | some health =>
      dsimp only
      split_ifs
      · obtain ⟨r, hr, -, hlast⟩ := sweepStale_moves call health
        rw [hr]
        rw [← healthOf_of_some hrow] at hlast
        exact watermark_save_same hlast account
      · rfl
  | invalidate other enabled =>
    dsimp only [step, foldedAttempts]
    cases hrow : s.health other with
    | none => rfl
    | some health =>
      dsimp only
      split_ifs
      · have hlast := (invalidate_moves health).2
        rw [← healthOf_of_some hrow] at hlast ⊢
        exact watermark_save_same hlast account
      · rfl
  | recordValidationOutcome other call =>
    obtain ⟨r, hr, -, hlast⟩ :=
      recordValidationOutcome_moves call (s.pendingAttempts other) (s.healthOf other)
    dsimp only [step, foldedAttempts]
    by_cases henabled : call.enabled = true
    · rw [if_pos henabled, hr]
      by_cases hother : other = account
      · subst hother
        rw [watermark_save, if_pos rfl, hlast]
        by_cases hend : call.disconnected = true ∨ (s.healthOf other).state = .tombstoned
        · rw [if_pos hend, if_neg]
          · rfl
          · rintro ⟨-, -, hdisc, hlive⟩
            rcases hend with hd | ht
            · rw [hdisc] at hd
              cases hd
            · exact hlive ht
        · obtain ⟨hdisc, hlive⟩ := not_or.mp hend
          rw [if_neg hend, if_pos ⟨rfl, henabled, Bool.eq_false_iff.mpr hdisc, hlive⟩]
          cases (s.pendingAttempts other).getLast? <;> rfl
      · rw [watermark_save, if_neg hother, if_neg fun h => hother h.1]
        rfl
    · rw [if_neg henabled, if_neg fun h => henabled h.2.1]
      rfl

lemma sorted_foldedAttempts (s : State) (account : ℕ) (a : Action) :
    (foldedAttempts s account a).Pairwise fun e e' => e.1 ≤ e'.1 := by
  cases a with
  | recordValidationOutcome other call =>
    dsimp only [foldedAttempts]
    split_ifs
    · exact List.pairwise_insertionSort
        (fun e e' : ℕ × BrokerAccountValidationAttempt => e.1 ≤ e'.1) _
    · exact .nil
  | _ => exact .nil

lemma le_watermark_of_folds {s : State} {a : Action} (h : folds account id s a = true) :
    id ≤ (step s a).watermark account := by
  obtain ⟨attempt, hmem⟩ := folds_iff.mp h
  obtain ⟨last, hlast⟩ : ∃ last, (foldedAttempts s account a).getLast? = some last :=
    ⟨_, List.getLast?_eq_some_getLast (List.ne_nil_of_mem hmem)⟩
  rw [watermark_step, hlast, Option.map_some, Option.getD_some]
  have hsorted := sorted_foldedAttempts s account a
  obtain ⟨init, hinit⟩ := List.getLast?_eq_some_iff.mp hlast
  rw [hinit] at hmem hsorted
  rcases List.mem_append.mp hmem with hinit | hlast
  · exact (List.pairwise_append.mp hsorted).2.2 _ hinit last List.mem_cons_self
  · rw [← List.mem_singleton.mp hlast]

lemma watermark_mono (s : State) (a : Action) (account : ℕ) :
    s.watermark account ≤ (step s a).watermark account := by
  cases hlast : (foldedAttempts s account a).getLast? with
  | none =>
    rw [watermark_step, hlast]
    exact le_refl _
  | some last =>
    have hmem : folds account last.1 s a = true :=
      folds_iff.mpr ⟨last.2, List.mem_of_getLast? hlast⟩
    exact (of_folds hmem).1.le.trans (le_watermark_of_folds hmem)

lemma folds_once (account id : ℕ) (s : State) (as : List Action) :
    countSteps step (folds account id) s as ≤ 1 := by
  refine countSteps_le_one id (fun s a => watermark_mono s a account) ?_ s as
  exact fun s a h => ⟨(of_folds h).1, le_watermark_of_folds h⟩

/-! ### Commits below the watermark -/

lemma attempts_step (s : State) (a : Action) :
    (step s a).attempts =
      match a with
      | .insertAttempt account status => s.attempts.insert s.attempts.fresh
          { accountId := account, status := status, createdAt := s.now }
      | .commitAttempt id => s.attempts.modify id fun attempt => { attempt with committed := true }
      | _ => s.attempts := by
  cases a with
  | tick | insertAttempt | commitAttempt => rfl
  | recordValidationOutcome account call =>
    dsimp only [step]
    split_ifs
    · exact attempts_save s account _
    · rfl
  | sweepStale account call | invalidate account enabled =>
    dsimp only [step]
    cases s.health account with
    | none => rfl
    | some health =>
      dsimp only
      split_ifs
      · exact attempts_save s account _
      · rfl

lemma attempt_step {s : State} {attempt : BrokerAccountValidationAttempt} (a : Action)
    (h : s.attempts.get id = some attempt) :
    ∃ attempt', (step s a).attempts.get id = some attempt' ∧
      attempt'.accountId = attempt.accountId ∧
      (attempt'.committed = true ↔ attempt.committed = true ∨ a = .commitAttempt id) := by
  rw [attempts_step]
  cases a with
  | insertAttempt account status =>
    exact ⟨attempt, Table.get_insert_of_get (Table.fresh_not_mem _) h, rfl, by simp⟩
  | commitAttempt id' =>
    dsimp only
    rw [Table.get_modify]
    by_cases hid : id = id'
    · subst hid
      rw [if_pos rfl, h]
      exact ⟨_, rfl, rfl, by simp⟩
    · rw [if_neg hid]
      exact ⟨attempt, h, rfl, by simp [Ne.symm hid]⟩
  | tick | recordValidationOutcome | sweepStale | invalidate => exact ⟨attempt, h, rfl, by simp⟩

/-- An attempt of a live account commits above the watermark of the account. -/
def InOrder (s : State) : Action → Prop
  | .commitAttempt id => ∀ attempt, s.attempts.get id = some attempt → attempt.committed = false →
      (s.healthOf attempt.accountId).state ≠ .tombstoned → s.watermark attempt.accountId < id
  | .tick _ | .insertAttempt .. | .recordValidationOutcome .. | .sweepStale .. | .invalidate .. =>
    True

lemma committed_origin {s : State} {a : Action} {attempt : BrokerAccountValidationAttempt}
    (h : (step s a).attempts.get id = some attempt) (hcommitted : attempt.committed = true) :
    ∃ old, s.attempts.get id = some old ∧ old.accountId = attempt.accountId ∧
      (old.committed = true ∨ old.committed = false ∧ a = .commitAttempt id) := by
  cases hold : s.attempts.get id with
  | some old =>
    obtain ⟨attempt', hget', haccount, hiff⟩ := attempt_step a hold
    rw [h] at hget'
    cases hget'
    refine ⟨old, rfl, haccount.symm, ?_⟩
    cases hc : old.committed with
    | true => exact .inl rfl
    | false =>
      rcases hiff.mp hcommitted with hcold | ha
      · rw [hc] at hcold
        cases hcold
      · exact .inr ⟨rfl, ha⟩
  | none =>
    exfalso
    rw [attempts_step] at h
    cases a with
    | insertAttempt account status =>
      dsimp only at h
      rw [Table.get_insert _ (Table.fresh_not_mem _)] at h
      split_ifs at h
      · cases h
        cases hcommitted
      · rw [hold] at h
        cases h
    | commitAttempt id' =>
      dsimp only at h
      rw [Table.get_modify] at h
      split_ifs at h with hid
      · rw [← hid, hold] at h
        cases h
      · rw [hold] at h
        cases h
    | tick | recordValidationOutcome | sweepStale | invalidate =>
      rw [hold] at h
      cases h

lemma folds_of_passed {s : State} {a : Action} {attempt : BrokerAccountValidationAttempt}
    (hget : s.attempts.get id = some attempt) (hcommitted : attempt.committed = true)
    (habove : s.watermark attempt.accountId < id)
    (hbelow : id ≤ (step s a).watermark attempt.accountId) :
    folds attempt.accountId id s a = true := by
  have hmem := mem_pendingAttempts.mpr ⟨hget, rfl, hcommitted, habove⟩
  rw [watermark_step] at hbelow
  cases a with
  | recordValidationOutcome other call =>
    rw [folds_iff]
    dsimp only [foldedAttempts] at hbelow ⊢
    split_ifs at hbelow ⊢
    · exact ⟨attempt, hmem⟩
    · exact absurd hbelow (Nat.not_le.mpr habove)
  | _ => exact absurd hbelow (Nat.not_le.mpr habove)

lemma not_folded_of_uncommitted (s : State) (as : List Action) (account id : ℕ)
    (h : ∀ attempt, (run step s as).attempts.get id = some attempt → attempt.committed = false) :
    countSteps step (folds account id) s as = 0 := by
  induction as using List.reverseRecOn with
  | nil => rfl
  | append_singleton as a ih =>
    rw [run_concat] at h
    have hbefore : ∀ attempt, (run step s as).attempts.get id = some attempt →
        attempt.committed = false := by
      intro attempt hget
      obtain ⟨attempt', hget', -, hiff⟩ := attempt_step a hget
      refine Bool.eq_false_iff.mpr fun hc => ?_
      have hc' := hiff.mpr (.inl hc)
      rw [h attempt' hget'] at hc'
      cases hc'
    have hno : ¬ folds account id (run step s as) a = true := by
      intro hfolds
      obtain ⟨-, attempt, hget, hc⟩ := of_folds hfolds
      rw [hbefore attempt hget] at hc
      cases hc
    rw [countSteps_append, countSteps_singleton, if_neg hno, ih hbefore]

/-- A committed attempt of a live account is above the watermark, or it has been folded. -/
def Accounted (s₀ : State) (as : List Action) (s : State) : Prop :=
  ∀ id attempt, s.attempts.get id = some attempt → attempt.committed = true →
    (s.healthOf attempt.accountId).state ≠ .tombstoned → id ≤ s.watermark attempt.accountId →
    1 ≤ countSteps step (folds attempt.accountId id) s₀ as

lemma accounted_step {s₀ : State} {as : List Action} {a : Action}
    (h : Accounted s₀ as (run step s₀ as)) (ha : InOrder (run step s₀ as) a) :
    Accounted s₀ (as ++ [a]) (step (run step s₀ as) a) := by
  intro id attempt hget hcommitted hlive hbelow
  rw [countSteps_append, countSteps_singleton]
  generalize run step s₀ as = s at *
  obtain ⟨old, hold, haccount, hc⟩ := committed_origin hget hcommitted
  rw [← haccount] at hlive hbelow ⊢
  have hlive' : (s.healthOf old.accountId).state ≠ .tombstoned := fun ht =>
    hlive (tombstoned_step s a old.accountId ht)
  rcases hc with hc | ⟨hc, rfl⟩
  · by_cases hpassed : id ≤ s.watermark old.accountId
    · exact Nat.le_add_right_of_le (h id old hold hc hlive' hpassed)
    · rw [if_pos (folds_of_passed hold hc (Nat.not_le.mp hpassed) hbelow)]
      exact Nat.le_add_left 1 _
  · exact absurd hbelow (Nat.not_le.mpr (ha old hold hc hlive'))

/-! ### The claim about the machine -/

/-- In a run the machine keeps its promises: a tombstoned account stays tombstoned, the version
counts the net transitions, the resume signal stands only in a healthy state that was entered from a
pause state, no attempt is folded twice, and a call that folds leaves no committed attempt of the
account unfolded. -/
structure Sound (s : State) (as : List Action) : Prop where
  absorbing : ∀ pre bs account, pre <+: bs → bs <+: as →
    ((run step s pre).healthOf account).state = .tombstoned →
    ((run step s bs).healthOf account).state = .tombstoned
  versions : ∀ pre account, pre <+: as →
    ((run step s pre).healthOf account).stateVersion = (trace step (netTransition account) s pre).length
  resumes : ∀ pre account, pre <+: as →
    ((run step s pre).healthOf account).resumeEligible = true →
    ((run step s pre).healthOf account).state = .healthy ∧
      ∃ old : HealthState, old.pauses = true ∧
        (trace step (netTransition account) s pre).getLast? = some (old, .healthy)
  neverTwice : ∀ account id, countSteps step (folds account id) s as ≤ 1
  foldsEach : ∀ pre account call id attempt, pre <+: as →
    call.folds ((run step s pre).healthOf account) →
    (run step s pre).attempts.get id = some attempt → attempt.accountId = account →
    attempt.committed = true →
    countSteps step (folds account id) s (pre ++ [.recordValidationOutcome account call]) = 1

/-- The machine is sound in exactly the runs in which the attempts commit in order. -/
theorem sound_iff (now : Time) (as : List Action) :
    Sound (.initial now) as ↔ StepsMeet step InOrder (.initial now) as := by
  constructor
  · intro h
    rw [stepsMeet_iff]
    rintro pre a post rfl
    cases a with
    | commitAttempt id =>
      intro attempt hget hc hlive
      by_contra hbelow
      -- The call after the commit finds the attempt below the watermark.
      have hprefix : pre ++ [.commitAttempt id] <+: pre ++ .commitAttempt id :: post :=
        ⟨post, by simp⟩
      have hone := h.foldsEach _ attempt.accountId
        { enabled := true, disconnected := false, now := now, config := {} } id
        { attempt with committed := true } hprefix
        ⟨rfl, rfl, by rw [run_concat]; exact hlive⟩
        (by
          rw [run_concat]
          dsimp only [step, State.withAttempts]
          rw [Table.get_modify_self, hget, Option.map_some]) rfl rfl
      have hzero : countSteps step (folds attempt.accountId id) (.initial now) pre = 0 := by
        refine not_folded_of_uncommitted _ _ _ _ fun attempt' hget' => ?_
        rw [hget] at hget'
        cases hget'
        exact hc
      have hno : ¬ folds attempt.accountId id
          (run step (.initial now) (pre ++ [.commitAttempt id]))
          (.recordValidationOutcome attempt.accountId
            { enabled := true, disconnected := false, now := now, config := {} }) = true := by
        intro hfolds
        have habove := (of_folds hfolds).1
        rw [run_concat] at habove
        exact hbelow habove
      rw [countSteps_append, countSteps_append, hzero, countSteps_singleton, countSteps_singleton,
        if_neg hno] at hone
      cases hone
    | _ => trivial
  · intro h
    refine ⟨?_, fun pre account _ => (traced_run now pre account).version,
      fun pre account _ => (traced_run now pre account).resume,
      fun account id => folds_once account id _ as, ?_⟩
    · rintro pre _ account ⟨mid, rfl⟩ - ht
      rw [run_append]
      exact run_invariant (P := fun s => (s.healthOf account).state = .tombstoned)
        (fun s a hs => tombstoned_step s a account hs) ht mid
    · rintro pre account call id attempt ⟨post, rfl⟩ hcall hget rfl hcommitted
      have hpre := (stepsMeet_append.mp h).1
      have haccounted : Accounted (.initial now) pre (run step (.initial now) pre) :=
        run_history_of_meets (fun _ _ hget => nomatch hget)
          (fun as a has ha => accounted_step has ha) hpre
      refine Nat.le_antisymm (folds_once _ _ _ _) ?_
      rw [countSteps_append, countSteps_singleton]
      by_cases hpassed : id ≤ (run step (.initial now) pre).watermark attempt.accountId
      · exact Nat.le_add_right_of_le (haccounted id attempt hget hcommitted hcall.2.2 hpassed)
      · have hfolds : folds attempt.accountId id (run step (.initial now) pre)
            (.recordValidationOutcome attempt.accountId call) = true := by
          refine folds_iff.mpr ⟨attempt, ?_⟩
          rw [foldedAttempts, if_pos ⟨rfl, hcall⟩]
          exact mem_pendingAttempts.mpr ⟨hget, rfl, hcommitted, Nat.not_le.mp hpassed⟩
        rw [if_pos hfolds]
        exact Nat.le_add_left 1 _

/-! ### A late commit -/

def sampleCall : Call := { enabled := true, disconnected := false, now := 10, config := {} }

/-- Two validations of one account, of which the first one commits last. -/
def lateCommit : List Action :=
  [.insertAttempt 1 "UNAVAILABLE", .insertAttempt 1 "HEALTHY", .commitAttempt 2,
    .recordValidationOutcome 1 sampleCall, .commitAttempt 1]

/-- The attempt that commits last is below the watermark and is never folded. -/
theorem sound_broken : ¬ Sound (.initial 0) lateCommit := by
  intro h
  have hget : (run step (.initial 0) lateCommit).attempts.get 1 =
      some { accountId := 1, status := "UNAVAILABLE", createdAt := 0, committed := true } := by
    decide +kernel
  have hone := h.foldsEach lateCommit 1 sampleCall 1 _ (List.prefix_refl _) (by decide +kernel)
    hget rfl rfl
  have hzero : countSteps step (folds 1 1) (.initial 0)
      (lateCommit ++ [.recordValidationOutcome 1 sampleCall]) = 0 := by
    decide +kernel
  rw [hzero] at hone
  cases hone

end BrokerHealth
end GuvFX
