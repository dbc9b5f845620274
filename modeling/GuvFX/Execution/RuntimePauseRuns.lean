/-
# The versions of a runtime pause

Processing calls, resumes and changes of the health row in any order.  The watermark of the record
never moves back, a pause is cleared only on the strength of a version from its cause on, and a
repeated resume changes nothing.  Decisions take effect in the order of their versions as long as no
call that returns at once leaves an older pause behind; such a call decides for a newer version and
does not move the watermark, so the older pause is not ignored when it reaches the record.
-/
import GuvFX.Execution.RuntimePause

namespace GuvFX
namespace RuntimePause

open Runs
open BrokerHealth (HealthState BrokerAccountHealth Contract)

/-! ### Decisions -/

def Processing.contract : Processing → Option Contract
  | .idle => none
  | .read contract | .admitted contract => some contract

/-- The version on whose strength the step decides about the pause: a call that returns at once, a
record that is written, a pause that is cleared.  A version that is ignored and a refused resume
decide nothing. -/
def decides (s : State) : Action → Option ℕ
  | .checkPaused p =>
    match s.calls p with
    | .read contract =>
      if contract.pauseRequired || s.isPaused then none else some contract.stateVersion
    | _ => none
  | .reconcile p _ =>
    match s.calls p, s.lock with
    | .admitted contract, none =>
      if ignores s.pause contract then none else some contract.stateVersion
    | _, _ => none
  | .commitResume r now =>
    match s.resumes r with
    | .verified gate (some contract) =>
      if (requestBrokerRuntimeResume gate (some contract) now s.pause).2.resumed then
        some contract.stateVersion
      else none
    | _ => none
  | .changeHealth _ | .readContract .. | .beginResume .. | .verifyResume .. => none

/-- What a step does to the record: nothing, or a processing call writes its contract into it, or a
resume clears it. -/
inductive PauseStep (s : State) (a : Action) : Option BrokerRuntimePause → Prop
  | same : PauseStep s a s.pause
  | written (p : ℕ) (now : Time) (contract : Contract) (rec : BrokerRuntimePause)
      (action : a = .reconcile p now) (call : s.calls p = .admitted contract)
      (newer : ¬ ignores s.pause contract = true)
      (row : reconcile contract now s.pause = some rec)
      (version : rec.lastProcessedVersion = contract.stateVersion)
      (paused : rec.paused = (contract.pauseRequired || s.isPaused))
      (decision : decides s a = some contract.stateVersion) : PauseStep s a (some rec)
  | cleared (r : ℕ) (now : Time) (gate : Option String) (contract : Contract)
      (old rec : BrokerRuntimePause) (action : a = .commitResume r now)
      (session : s.resumes r = .verified gate (some contract)) (row : s.pause = some old)
      (wasPaused : old.paused = true) (cause : old.sourceStateVersion ≤ contract.stateVersion)
      (paused : rec.paused = false)
      (version : rec.lastProcessedVersion = max old.lastProcessedVersion contract.stateVersion)
      (decision : decides s a = some contract.stateVersion) : PauseStep s a (some rec)

lemma step_pause (s : State) (a : Action) : PauseStep s a (step s a).pause := by
  cases a with
  | changeHealth health =>
    dsimp only [step]
    split_ifs <;> exact .same
  | readContract p enabled =>
    dsimp only [step]
    split
    · split_ifs <;> exact .same
    · exact .same
  | checkPaused p =>
    dsimp only [step]
    split
    · split_ifs <;> exact .same
    · exact .same
  | beginResume r enabled =>
    dsimp only [step]
    cases s.resumes r with
    | idle | done =>
      dsimp only
      split_ifs
      · split <;> exact .same
      · exact .same
    | locked | verified => exact .same
  | verifyResume r enabled gate =>
    dsimp only [step]
    split <;> exact .same
  | reconcile p now =>
    cases hcall : s.calls p with
    | idle | read =>
      dsimp only [step]
      rw [hcall]
      exact .same
    | admitted contract =>
      cases hlock : s.lock with
      | some r =>
        dsimp only [step]
        rw [hcall, hlock]
        exact .same
      | none =>
        have hpause : (step s (.reconcile p now)).pause = reconcile contract now s.pause := by
          dsimp only [step]
          rw [hcall, hlock]
        rw [hpause]
        rcases reconcile_cases contract now s.pause with
          ⟨-, hsame⟩ | ⟨hnewer, rec, hrec, hversion, hpaused⟩
        · rw [hsame]
          exact .same
        · rw [hrec]
          refine .written p now contract rec rfl hcall hnewer hrec hversion hpaused ?_
          simp only [decides, hcall, hlock, if_neg hnewer]
  | commitResume r now =>
    cases hresume : s.resumes r with
    | idle | locked | done =>
      dsimp only [step]
      rw [hresume]
      exact .same
    | verified gate contract =>
      have hpause : (step s (.commitResume r now)).pause =
          (requestBrokerRuntimeResume gate contract now s.pause).1 := by
        dsimp only [step]
        rw [hresume]
      rw [hpause]
      rcases requestResume_cases gate contract now s.pause with
        ⟨old, c, hrow, rfl, hwas, hcause, hresumed, rec, hrec, hpaused, hversion⟩ | ⟨hsame, -⟩
      · rw [hrec]
        refine .cleared r now gate c old rec rfl hresume hrow hwas hcause hpaused hversion ?_
        simp only [decides, hresume, if_pos hresumed]
      · rw [hsame]
        exact .same

/-! ### The promises that always hold -/

/-- The watermark never moves back. -/
lemma processed_mono (s : State) (a : Action) : s.processed ≤ (step s a).processed := by
  rw [State.processed, State.processed]
  have hstep := step_pause s a
  generalize (step s a).pause = row at hstep
  cases hstep with
  | same => exact le_refl _
  | written p now contract rec _ _ hnewer _ hversion =>
    cases hrow : s.pause with
    | none => exact Nat.zero_le _
    | some old =>
      rw [hrow] at hnewer
      exact (lt_of_not_ignores hnewer).le.trans hversion.ge
  | cleared r now gate contract old rec _ _ hrow _ _ _ hversion =>
    rw [hrow]
    exact (Nat.le_max_left _ _).trans hversion.ge

lemma cleared_by {s : State} {a : Action} {rec : BrokerRuntimePause} (hrow : s.pause = some rec)
    (hpaused : rec.paused = true) (hclear : (step s a).isPaused = false) :
    ∃ v, decides s a = some v ∧ rec.sourceStateVersion ≤ v := by
  have hbefore : s.isPaused = true := by
    rw [State.isPaused, hrow]
    exact hpaused
  rw [State.isPaused] at hclear
  have hstep := step_pause s a
  generalize (step s a).pause = row at hstep hclear
  cases hstep with
  | same =>
    rw [← State.isPaused, hbefore] at hclear
    cases hclear
  | written p now contract rec' _ _ _ _ _ hpaused' =>
    rw [pausedOf, Option.any_some, hpaused', hbefore, Bool.or_true] at hclear
    cases hclear
  | cleared r now gate contract old rec' _ _ hrow' _ hcause _ _ hdecision =>
    rw [hrow] at hrow'
    cases hrow'
    exact ⟨contract.stateVersion, hdecision, hcause⟩

lemma resume_idempotent {s : State} {rec : BrokerRuntimePause} (hrow : s.pause = some rec)
    (hpaused : rec.paused = false) (r : ℕ) (now : Time) :
    (step s (.commitResume r now)).pause = some rec := by
  have hstep := step_pause s (.commitResume r now)
  generalize (step s (.commitResume r now)).pause = row at hstep
  cases hstep with
  | same => exact hrow
  | written p now contract rec' haction => cases haction
  | cleared r now gate contract old rec' _ _ hrow' hwas =>
    rw [hrow] at hrow'
    cases hrow'
    rw [hpaused] at hwas
    cases hwas

/-! ### The order of the decisions -/

/-- A call that returns at once leaves nobody behind who holds an older contract that asks for a
pause and that the record does not ignore. -/
def NobodyBehind (s : State) : Action → Prop
  | .checkPaused p => ∀ contract, s.calls p = .read contract → contract.pauseRequired = false →
      s.isPaused = false → ∀ q older, (s.calls q).contract = some older →
        older.pauseRequired = true → older.stateVersion < contract.stateVersion →
        ignores s.pause older = true
  | .changeHealth _ | .readContract .. | .reconcile .. | .beginResume .. | .verifyResume ..
    | .commitResume .. => True

def Resume.holds : Resume → Prop
  | .locked | .verified .. => True
  | .idle | .done _ => False

/-- The versions at a moment: those decided so far, with the record, the calls and the resumes. -/
structure Inv (decided : ℕ → Prop) (s : State) : Prop where
  rowLive : s.processed ≤ s.liveVersion
  callLive : ∀ p c, (s.calls p).contract = some c → c.stateVersion ≤ s.liveVersion
  decidedLive : ∀ w, decided w → w ≤ s.liveVersion
  decidedRow : ∀ w, decided w → s.isPaused = true → w ≤ s.processed
  behind : ∀ w p c, decided w → (s.calls p).contract = some c → c.pauseRequired = true →
    c.stateVersion < w → ignores s.pause c = true
  holder : ∀ r, (s.resumes r).holds → s.lock = some r
  verified : ∀ r gate c, s.resumes r = .verified gate (some c) →
    s.processed ≤ c.stateVersion ∧ c.stateVersion ≤ s.liveVersion

variable {decided : ℕ → Prop} {s : State}

lemma inv_initial : Inv (fun _ => False) State.initial where
  rowLive := le_refl _
  callLive := fun _ _ h => nomatch h
  decidedLive := fun _ h => h.elim
  decidedRow := fun _ h => h.elim
  behind := fun _ _ _ h => h.elim
  holder := fun _ h => h.elim
  verified := fun _ _ _ h => nomatch h

/-- A decision that is in order joins the others. -/
lemma Inv.decide {v : ℕ} (h : Inv decided s) (hlive : v ≤ s.liveVersion)
    (hrow : s.isPaused = true → v ≤ s.processed)
    (hbehind : ∀ p c, (s.calls p).contract = some c → c.pauseRequired = true →
      c.stateVersion < v → ignores s.pause c = true) :
    Inv (fun w => decided w ∨ w = v) s where
  rowLive := h.rowLive
  callLive := h.callLive
  decidedLive := by
    rintro w (hw | rfl)
    exacts [h.decidedLive w hw, hlive]
  decidedRow := by
    rintro w (hw | rfl)
    exacts [h.decidedRow w hw, hrow]
  behind := by
    rintro w p c (hw | rfl)
    exacts [h.behind w p c hw, hbehind p c]
  holder := h.holder
  verified := h.verified

lemma Inv.withCall {p : ℕ} {call : Processing} (h : Inv decided s)
    (hcall : ∀ c, call.contract = some c →
      (s.calls p).contract = some c ∨ c.stateVersion = s.liveVersion) :
    Inv decided (s.withCall p call) := by
  have hcontract : ∀ q c, ((s.withCall p call).calls q).contract = some c →
      (s.calls q).contract = some c ∨ c.stateVersion = s.liveVersion := by
    intro q c hq
    dsimp only [State.withCall] at hq
    by_cases hqp : q = p
    · subst hqp
      rw [Function.update_self] at hq
      exact hcall c hq
    · rw [Function.update_of_ne hqp] at hq
      exact .inl hq
  refine { h with
    callLive := fun q c hq => ?_
    behind := fun w q c hw hq hreq hlt => ?_ }
  · rcases hcontract q c hq with hold | hnew
    · exact h.callLive q c hold
    · exact hnew.le
  · rcases hcontract q c hq with hold | hnew
    · exact h.behind w q c hw hold hreq hlt
    · exact absurd (h.decidedLive w hw) (Nat.not_le.mpr (hnew ▸ hlt))

lemma Inv.record {row : Option BrokerRuntimePause} (h : Inv decided s)
    (hup : s.processed ≤ processedOf row) (hlive : processedOf row ≤ s.liveVersion)
    (hrow : pausedOf row = true → ∀ w, decided w → w ≤ processedOf row)
    (hsome : row.isSome = true)
    (hnone : ∀ r gate c, s.resumes r ≠ .verified gate (some c)) :
    Inv decided { s with pause := row } where
  rowLive := hlive
  callLive := h.callLive
  decidedLive := h.decidedLive
  decidedRow := fun w hw hpaused => hrow hpaused w hw
  behind := by
    intro w p c hw hc hreq hlt
    have hold := h.behind w p c hw hc hreq hlt
    cases hpause : s.pause with
    | none =>
      rw [hpause] at hold
      cases hold
    | some old =>
      obtain ⟨rec, rfl⟩ := Option.isSome_iff_exists.mp hsome
      rw [hpause] at hold
      rw [State.processed, hpause] at hup
      simp only [ignores, Option.any_some, decide_eq_true_eq] at hold ⊢
      exact hold.trans hup
  holder := h.holder
  verified := fun r gate c hr => absurd hr (hnone r gate c)

lemma Inv.mono {fewer : ℕ → Prop} (h : Inv decided s) (hfewer : ∀ w, fewer w → decided w) :
    Inv fewer s where
  rowLive := h.rowLive
  callLive := h.callLive
  decidedLive := fun w hw => h.decidedLive w (hfewer w hw)
  decidedRow := fun w hw => h.decidedRow w (hfewer w hw)
  behind := fun w p c hw => h.behind w p c (hfewer w hw)
  holder := h.holder
  verified := h.verified

/-- A step without a decision. -/
lemma Inv.undecided {a : Action} (h : Inv decided s) {s₀ : State} (hnone : decides s₀ a = none) :
    Inv (fun w => decided w ∨ decides s₀ a = some w) s := by
  refine h.mono fun w hw => ?_
  rw [hnone] at hw
  rcases hw with hw | hw
  · exact hw
  · cases hw

lemma Inv.endResume {r : ℕ} (h : Inv decided s) (hheld : (s.resumes r).holds)
    (result : ResumeResult) :
    Inv decided { s.withResume r (.done result) with lock := none } ∧
      ∀ q gate c, ({ s.withResume r (.done result) with lock := none } : State).resumes q ≠
        .verified gate (some c) := by
  have hidle : ∀ q, ¬ ((Function.update s.resumes r (.done result)) q).holds := by
    intro q hq
    by_cases hqr : q = r
    · subst hqr
      rw [Function.update_self] at hq
      exact hq
    · rw [Function.update_of_ne hqr] at hq
      have hlock := h.holder q hq
      rw [h.holder r hheld] at hlock
      exact hqr (Option.some.inj hlock).symm
  have hnone : ∀ q gate c, Function.update s.resumes r (.done result) q ≠
      .verified gate (some c) := by
    intro q gate c hq
    refine hidle q ?_
    rw [hq]
    trivial
  exact ⟨{ h with
    holder := fun q hq => absurd hq (hidle q)
    verified := fun q gate c hq => absurd hq (hnone q gate c) }, hnone⟩

lemma Inv.refuse {r : ℕ} {result : ResumeResult} (h : Inv decided s) :
    Inv decided (s.withResume r (.done result)) := by
  refine { h with
    holder := fun q hq => ?_
    verified := fun q gate c hq => ?_ }
  · dsimp only [State.withResume] at hq
    by_cases hqr : q = r
    · subst hqr
      rw [Function.update_self] at hq
      exact hq.elim
    · rw [Function.update_of_ne hqr] at hq
      exact h.holder q hq
  · dsimp only [State.withResume] at hq
    by_cases hqr : q = r
    · subst hqr
      rw [Function.update_self] at hq
      cases hq
    · rw [Function.update_of_ne hqr] at hq
      exact h.verified q gate c hq

lemma stateVersion_getContract {c : Contract} (h : s.getContract = some c) :
    c.stateVersion = s.liveVersion := by
  rw [State.getContract] at h
  obtain ⟨health, hhealth, rfl⟩ := Option.map_eq_some_iff.mp h
  rw [State.liveVersion, hhealth]
  rfl

lemma inv_changeHealth (h : Inv decided s) (health : BrokerAccountHealth) :
    Inv decided (step s (.changeHealth health)) := by
  dsimp only [step]
  split_ifs with hsup
  · have hlive : s.liveVersion ≤ health.stateVersion := by
      rw [State.liveVersion]
      cases hold : s.health with
      | none => exact Nat.zero_le _
      | some old =>
        rw [hold] at hsup
        rcases hsup with hlt | ⟨heq, -⟩
        exacts [hlt.le, heq.le]
    exact { h with
      rowLive := h.rowLive.trans hlive
      callLive := fun p c hc => (h.callLive p c hc).trans hlive
      decidedLive := fun w hw => (h.decidedLive w hw).trans hlive
      verified := fun r gate c hr =>
        ⟨(h.verified r gate c hr).1, (h.verified r gate c hr).2.trans hlive⟩ }
  · exact h

lemma inv_readContract (h : Inv decided s) (p : ℕ) (enabled : Bool) :
    Inv decided (step s (.readContract p enabled)) := by
  dsimp only [step]
  split
  · rename_i contract _ hcontract
    split_ifs
    · refine h.withCall fun c hc => .inr ?_
      cases hc
      exact stateVersion_getContract hcontract
    · exact h
  · exact h

lemma inv_checkPaused (h : Inv decided s) {p : ℕ} (ha : NobodyBehind s (.checkPaused p)) :
    Inv (fun w => decided w ∨ decides s (.checkPaused p) = some w) (step s (.checkPaused p)) := by
  cases hcall : s.calls p with
  | idle | admitted =>
    simp only [step, decides, hcall]
    exact h.mono fun w hw => hw.resolve_right (fun hn => nomatch hn)
  | read contract =>
    simp only [step, decides, hcall]
    by_cases hwait : (contract.pauseRequired || s.isPaused) = true
    · simp only [if_pos hwait]
      refine (h.mono fun w hw => hw.resolve_right (fun hn => nomatch hn)).withCall fun c hc => ?_
      rw [hcall]
      exact .inl hc
    · simp only [if_neg hwait]
      obtain ⟨hreq, hpaused⟩ := Bool.or_eq_false_iff.mp (Bool.eq_false_iff.mpr hwait)
      have hlive := h.callLive p contract (by rw [hcall]; rfl)
      have hdecide := h.decide hlive (fun hp => absurd hp (Bool.eq_false_iff.mp hpaused))
        (fun q c hc hcreq hlt => ha contract hcall hreq hpaused q c hc hcreq hlt)
      refine (hdecide.mono ?_).withCall (fun c hc => nomatch hc)
      rintro w (hw | hw)
      · exact .inl hw
      · exact .inr (Option.some.inj hw).symm

lemma inv_reconcile (h : Inv decided s) (p : ℕ) (now : Time) :
    Inv (fun w => decided w ∨ decides s (.reconcile p now) = some w)
      (step s (.reconcile p now)) := by
  cases hcall : s.calls p with
  | idle | read =>
    simp only [step, decides, hcall]
    exact h.mono fun w hw => hw.resolve_right (fun hn => nomatch hn)
  | admitted contract =>
    cases hlock : s.lock with
    | some r =>
      simp only [step, decides, hcall, hlock]
      exact h.mono fun w hw => hw.resolve_right (fun hn => nomatch hn)
    | none =>
      have hcontract : (s.calls p).contract = some contract := by
        rw [hcall]
        rfl
      have hstate : step s (.reconcile p now) =
          { s.withCall p .idle with pause := reconcile contract now s.pause } := by
        simp only [step, hcall, hlock]
      rw [hstate]
      rcases reconcile_cases contract now s.pause with
        ⟨hig, hsame⟩ | ⟨hnewer, rec, hrec, hversion, hpaused⟩
      · rw [hsame]
        refine Inv.withCall (s := { s with pause := s.pause }) ?_ (fun c hc => nomatch hc)
        exact h.undecided (by simp only [decides, hcall, hlock, if_pos hig])
      · have hup : s.processed ≤ processedOf (some rec) := by
          have hmono := processed_mono s (.reconcile p now)
          rwa [State.processed, State.processed, hstate, hrec] at hmono
        have hlive := h.callLive p contract hcontract
        have hnone : ∀ r gate c, s.resumes r ≠ .verified gate (some c) := by
          intro r gate c hr
          have hheld := h.holder r (by rw [hr]; trivial)
          rw [hlock] at hheld
          cases hheld
        -- A decision of a newer version keeps this call from pausing the record.
        have hrow : pausedOf (some rec) = true → ∀ w, decided w → w ≤ processedOf (some rec) := by
          intro hrecPaused w hw
          by_contra hlt
          have hlt : contract.stateVersion < w := by
            rw [← hversion]
            exact Nat.not_le.mp hlt
          cases hreq : contract.pauseRequired with
          | true => exact hnewer (h.behind w p contract hw hcontract hreq hlt)
          | false =>
            rw [hreq, Bool.false_or] at hpaused
            have hwas : s.isPaused = true := by
              rw [State.isPaused, ← hpaused]
              exact hrecPaused
            have hle := (h.decidedRow w hw hwas).trans hup
            rw [processedOf, Option.getD_some, hversion] at hle
            exact absurd hle (Nat.not_le.mpr hlt)
        rw [hrec]
        have hrecord := h.record hup (hversion.le.trans hlive) hrow rfl hnone
        have hdecide := hrecord.decide (v := contract.stateVersion) hlive (fun _ => hversion.ge)
          (fun q c _ _ hlt => decide_eq_true (hlt.le.trans hversion.ge))
        refine (hdecide.mono ?_).withCall (fun c hc => nomatch hc)
        simp only [decides, hcall, hlock, if_neg hnewer]
        rintro w (hw | hw)
        · exact .inl hw
        · exact .inr (Option.some.inj hw).symm

lemma inv_beginResume (h : Inv decided s) (r : ℕ) (enabled : Bool) :
    Inv decided (step s (.beginResume r enabled)) := by
  cases hresume : s.resumes r with
  | locked | verified =>
    simp only [step, hresume]
    exact h
  | idle | done =>
    simp only [step, hresume]
    split_ifs
    · cases hlock : s.lock with
      | some q => exact h
      | none =>
        cases s.pause with
        | none => exact h.refuse
        | some rec =>
          refine { h with
            holder := fun q hq => ?_
            verified := fun q gate c hq => ?_ }
          · by_cases hqr : q = r
            · rw [hqr]
            · dsimp only [State.withResume] at hq
              rw [Function.update_of_ne hqr] at hq
              have hheld := h.holder q hq
              rw [hlock] at hheld
              cases hheld
          · dsimp only [State.withResume] at hq
            by_cases hqr : q = r
            · subst hqr
              rw [Function.update_self] at hq
              cases hq
            · rw [Function.update_of_ne hqr] at hq
              exact h.verified q gate c hq
    · exact h.refuse

lemma inv_verifyResume (h : Inv decided s) (r : ℕ) (enabled : Bool) (gate : Option String) :
    Inv decided (step s (.verifyResume r enabled gate)) := by
  cases hresume : s.resumes r with
  | idle | verified | done =>
    simp only [step, hresume]
    exact h
  | locked =>
    simp only [step, hresume]
    refine { h with
      holder := fun q hq => ?_
      verified := fun q gate' c hq => ?_ }
    · by_cases hqr : q = r
      · rw [hqr]
        exact h.holder r (by rw [hresume]; trivial)
      · dsimp only [State.withResume] at hq
        rw [Function.update_of_ne hqr] at hq
        exact h.holder q hq
    · dsimp only [State.withResume] at hq
      by_cases hqr : q = r
      · subst hqr
        rw [Function.update_self] at hq
        cases enabled with
        | false => cases hq
        | true =>
          obtain ⟨-, hcontract⟩ := Resume.verified.inj hq
          have hversion := stateVersion_getContract hcontract
          exact ⟨h.rowLive.trans hversion.ge, hversion.le⟩
      · rw [Function.update_of_ne hqr] at hq
        exact h.verified q gate' c hq

lemma inv_commitResume (h : Inv decided s) (r : ℕ) (now : Time) :
    Inv (fun w => decided w ∨ decides s (.commitResume r now) = some w)
      (step s (.commitResume r now)) := by
  cases hresume : s.resumes r with
  | idle | locked | done =>
    simp only [step, decides, hresume]
    exact h.mono fun w hw => hw.resolve_right (fun hn => nomatch hn)
  | verified gate contract =>
    have hstate : step s (.commitResume r now) =
        { ({ s.withResume r (.done (requestBrokerRuntimeResume gate contract now s.pause).2) with
            lock := none } : State) with
          pause := (requestBrokerRuntimeResume gate contract now s.pause).1 } := by
      simp only [step, hresume]
    rw [hstate]
    have hheld : (s.resumes r).holds := by
      rw [hresume]
      trivial
    obtain ⟨hended, hnone⟩ :=
      h.endResume hheld (requestBrokerRuntimeResume gate contract now s.pause).2
    rcases requestResume_cases gate contract now s.pause with
      ⟨old, c, hrow, rfl, hwas, hcause, hresumed, rec, hrec, hpaused, hversion⟩ | ⟨hsame, hno⟩
    · obtain ⟨hprocessed, hlive⟩ := h.verified r gate c hresume
      have hrecVersion : rec.lastProcessedVersion = c.stateVersion := by
        rw [State.processed, hrow] at hprocessed
        rw [hversion]
        exact max_eq_right hprocessed
      have hclear : pausedOf (some rec) = false := by
        rw [pausedOf, Option.any_some, hpaused]
      rw [hrec]
      have hup : s.processed ≤ processedOf (some rec) := hprocessed.trans hrecVersion.ge
      have hrecord := hended.record hup (hrecVersion.le.trans hlive)
        (fun hp => absurd hp (Bool.eq_false_iff.mp hclear)) rfl hnone
      have hdecide := hrecord.decide (v := c.stateVersion) hlive (fun _ => hrecVersion.ge)
        (fun q c' _ _ hlt => decide_eq_true (hlt.le.trans hrecVersion.ge))
      refine hdecide.mono ?_
      simp only [decides, hresume, if_pos hresumed]
      rintro w (hw | hw)
      · exact .inl hw
      · exact .inr (Option.some.inj hw).symm
    · rw [hsame]
      refine hended.undecided ?_
      cases contract with
      | none => simp only [decides, hresume]
      | some c => simp only [decides, hresume, hno, Bool.false_eq_true, if_false]

lemma inv_step {a : Action} (h : Inv decided s) (ha : NobodyBehind s a) :
    Inv (fun w => decided w ∨ decides s a = some w) (step s a) := by
  cases a with
  | changeHealth health => exact (inv_changeHealth h health).undecided rfl
  | readContract p enabled => exact (inv_readContract h p enabled).undecided rfl
  | checkPaused p => exact inv_checkPaused h ha
  | reconcile p now => exact inv_reconcile h p now
  | beginResume r enabled => exact (inv_beginResume h r enabled).undecided rfl
  | verifyResume r enabled gate => exact (inv_verifyResume h r enabled gate).undecided rfl
  | commitResume r now => exact inv_commitResume h r now

/-- A decision that is older than an earlier one moves the watermark at most. -/
lemma Inv.ordered {a : Action} {v w : ℕ} (h : Inv decided s) (hv : decides s a = some v)
    (hw : decided w) (hlt : v < w) : SamePause s.pause (step s a).pause := by
  have hstep := step_pause s a
  generalize (step s a).pause = row at hstep
  cases hstep with
  | same => exact .refl _
  | written p now contract rec haction hcall hnewer hrec hversion _ hdecision =>
    rw [hv] at hdecision
    obtain rfl := Option.some.inj hdecision
    have hcontract : (s.calls p).contract = some contract := by
      rw [hcall]
      rfl
    cases hreq : contract.pauseRequired with
    | true => exact absurd (h.behind w p contract hw hcontract hreq hlt) hnewer
    | false =>
      rw [← hrec]
      refine samePause_reconcile hreq (Bool.eq_false_iff.mpr fun hpaused => ?_)
      obtain ⟨old, hold, -⟩ := Option.any_eq_true _ _ |>.mp hpaused
      have hle := h.decidedRow w hw hpaused
      rw [hold] at hnewer
      rw [State.processed, hold] at hle
      exact absurd (hle.trans (lt_of_not_ignores hnewer).le) (Nat.not_le.mpr hlt)
  | cleared r now gate contract old rec haction hsession hrow hwas _ _ _ hdecision =>
    rw [hv] at hdecision
    obtain rfl := Option.some.inj hdecision
    have hpaused : s.isPaused = true := by
      rw [State.isPaused, hrow]
      exact hwas
    have hle := (h.decidedRow w hw hpaused).trans (h.verified r gate contract hsession).1
    exact absurd hle (Nat.not_le.mpr hlt)

/-! ### Versions along a run -/

/-- In a run the watermark of the record never moves back, a pause is cleared only on the strength
of a version from its cause on, a decision that is older than an earlier one moves the watermark at
most, and a resume leaves a record alone that is not paused. -/
structure Versioned (s : State) (as : List Action) : Prop where
  watermark : ∀ pre bs, pre <+: bs → bs <+: as →
    (run step s pre).processed ≤ (run step s bs).processed
  cause : ∀ pre a rec, pre ++ [a] <+: as → (run step s pre).pause = some rec →
    rec.paused = true → (step (run step s pre) a).isPaused = false →
    ∃ v, decides (run step s pre) a = some v ∧ rec.sourceStateVersion ≤ v
  ordered : ∀ pre a v w, pre ++ [a] <+: as → w ∈ trace step decides s pre →
    decides (run step s pre) a = some v → v < w →
    SamePause (run step s pre).pause (step (run step s pre) a).pause
  idempotent : ∀ pre r now rec, pre <+: as → (run step s pre).pause = some rec →
    rec.paused = false → (step (run step s pre) (.commitResume r now)).pause = some rec

/-- The pause is versioned in every run in which no call that returns at once leaves an older pause
behind. -/
theorem versioned_of_nobodyBehind (as : List Action)
    (h : StepsMeet step NobodyBehind .initial as) : Versioned .initial as where
  watermark := by
    rintro pre _ ⟨mid, rfl⟩ -
    rw [run_append]
    exact run_invariant (P := fun s => (run step State.initial pre).processed ≤ s.processed)
      (fun s a hs => hs.trans (processed_mono s a)) (le_refl _) mid
  cause := fun pre a rec _ => cleared_by
  ordered := by
    rintro pre a v w ⟨post, rfl⟩ hw hv hlt
    have hpre := (stepsMeet_append.mp (stepsMeet_append.mp h).1).1
    have hinv : Inv (· ∈ trace step decides .initial pre) (run step .initial pre) := by
      refine run_history_of_meets (Q := fun as s => Inv (· ∈ trace step decides .initial as) s)
        (inv_initial.mono fun w hw => nomatch hw) ?_ hpre
      intro as a has ha
      exact (inv_step has ha).mono fun w hw => mem_trace_concat.mp hw
    exact hinv.ordered hv hw hlt
  idempotent := fun pre r now rec _ hrow hpaused => resume_idempotent hrow hpaused r now

/-! ### An older pause that overtakes -/

def sampleHealth (state : HealthState) (version : ℕ) : BrokerAccountHealth :=
  { state := state, stateVersion := version }

/-- A call returns at once, a later one pauses, and an operator resumes after the recovery. -/
def resumedRun : List Action :=
  [.changeHealth (sampleHealth .healthy 1), .readContract 0 true, .checkPaused 0,
    .changeHealth (sampleHealth .degraded 2), .readContract 0 true, .checkPaused 0,
    .reconcile 0 5, .changeHealth (sampleHealth .healthy 3), .beginResume 0 true,
    .verifyResume 0 true none, .commitResume 0 9]

/-- The run with a resume is versioned, and ends without a pause. -/
theorem versioned_resumedRun : Versioned .initial resumedRun ∧
    (run step .initial (resumedRun.take 7)).isPaused = true ∧
    (run step .initial resumedRun).isPaused = false := by
  refine ⟨versioned_of_nobodyBehind resumedRun ?_, by decide +kernel, by decide +kernel⟩
  refine ⟨trivial, trivial, ?_, trivial, trivial, ?_, trivial, trivial, trivial, trivial, trivial,
    trivial⟩
  · intro contract hread _ _ q older hq _ hlt
    by_cases hq0 : q = 0
    · subst hq0
      rw [hread] at hq
      cases hq
      exact absurd hlt (lt_irrefl _)
    · have hidle : (step (step .initial (.changeHealth (sampleHealth .healthy 1)))
          (.readContract 0 true)).calls q = .idle := Function.update_of_ne hq0 _ _
      rw [hidle] at hq
      cases hq
  · intro contract hread hreq
    cases hread
    cases hreq

/-- The health recovers before a call that has read the pause reaches the record. -/
def overtakingRun : List Action :=
  [.changeHealth (sampleHealth .degraded 1), .readContract 0 true,
    .changeHealth (sampleHealth .healthy 2), .readContract 1 true, .checkPaused 1, .checkPaused 0,
    .reconcile 0 5]

/-- The older version pauses the record after the newer one has decided that there is nothing to
do. -/
theorem versioned_broken : ¬ Versioned .initial overtakingRun := by
  intro h
  have hnewer : 2 ∈ trace step decides .initial (overtakingRun.take 6) := by decide +kernel
  have hsame := h.ordered (overtakingRun.take 6) (.reconcile 0 5) 1 2 (List.prefix_refl _) hnewer
    (by decide +kernel) (by decide)
  have hbefore : (run step .initial (overtakingRun.take 6)).isPaused = false := by decide +kernel
  have hafter : (run step .initial overtakingRun).isPaused = true := by decide +kernel
  exact Bool.false_ne_true (hbefore.symm.trans (hsame.paused.trans hafter))

end RuntimePause
end GuvFX
