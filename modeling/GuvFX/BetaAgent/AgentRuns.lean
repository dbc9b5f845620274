/-
# What a job asks for is done once

A request is looked up, run and stored in steps of their own.  As long as no request of a job and an
operation is looked up while another one that has found nothing is still to be answered, a run that
returns is the last one: its answer is in the store before the next look.  Every later request for the
same thing gets this answer, and every other request of the job and the operation is refused.

Without the condition two requests may both find nothing, and both run, one after the other; they never
run at the same time when the operation changes the runtime.
-/
import GuvFX.BetaAgent.AgentCore
import GuvFX.BetaAgent.ProtocolRuns

namespace GuvFX
namespace AgentCore

open Runs
open Protocol (Fields)

variable {host : Host} {cfg : Config} {s : State} {a : Action} {id id' : ℕ} {st st' : Stage}
  {w w' : Work} {runtime : String} {response : Response} {raw : Fields} {e : Event}
  {request : Fields}

/-! ### Requests under way -/

/-- The work of a request that has found nothing and is still to be answered. -/
def Stage.work : Stage → Option Work
  | .missed w | .permitted w _ | .resolving w _ | .running w _ | .ran w _ _ | .unlocked w _
  | .left w _ => some w
  | .login _ | .answered _ => none

/-- How the locked part of a request has ended. -/
def Stage.result : Stage → Option Result
  | .ran _ _ result | .unlocked _ result | .left _ result => some result
  | _ => none

def Stage.Returned (st : Stage) (raw : Fields) : Prop := st.result = some (.returned raw)

@[simp] lemma work_over (result : Result) : (w.over runtime result).work = some w := by
  unfold Work.over
  split <;> rfl

@[simp] lemma result_over (result : Result) : (w.over runtime result).result = some result := by
  unfold Work.over
  split <;> rfl

lemma stages_self : (s.withStage id st).stages id = some st := Function.update_self ..

lemma stages_of_ne (h : id' ≠ id) : (s.withStage id st).stages id' = s.stages id' :=
  Function.update_of_ne h ..

/-! ### What follows a run that has returned -/

/-- What may happen after the implementation has returned for a request. -/
def Follows (host : Host) (cfg : Config) (w : Work) (response : Response) : Event → Prop
  | .missed _ w' | .began _ w' | .returned _ w' _ => w'.pair ≠ w.pair
  | .answered _ (some request) response' => ∀ w', workOf host cfg request = some w' →
      w'.pair = w.pair → (w'.digest host = w.digest host → response' = response) ∧
        (w'.digest host ≠ w.digest host →
          response' = denied host cfg (some request) "job_op_conflict")
  | .answered _ none _ => True

/-- After a run that has returned there is no further run and no further look that finds nothing; the
requests of its kind are answered with its answer, and the others are refused. -/
def Settled (host : Host) (cfg : Config) (log : List Event) : Prop :=
  log.Pairwise fun later earlier =>
    ∀ id w response, earlier = .returned id w response → Follows host cfg w response later

/-- A look into the store that finds nothing is not made while a request of the same job and the same
operation that has found nothing is still to be answered. -/
def Apart (host : Host) (cfg : Config) (s : State) : Action → Prop
  | .dispatch id => ∀ checked, s.channel.verifications id = some (.accepted checked) →
      ∀ w, workOf host cfg checked.request = some w →
        ∀ id' w', .missed id' w' ∈ s.log → w'.pair = w.pair →
          ∃ response, s.stages id' = some (.answered response)
  | _ => True

/-- What holds in a run of the agent in which looks are apart. -/
structure Inv (host : Host) (cfg : Config) (s : State) : Prop where
  /-- One request of a job and an operation is under way. -/
  apart : ∀ id id' st st' w w', s.stages id = some st → s.stages id' = some st' →
    st.work = some w → st'.work = some w' → w.pair = w'.pair → id = id'
  /-- Nothing is stored for a request that is under way. -/
  fresh : ∀ id st w, s.stages id = some st → st.work = some w → s.idem.get w.pair = none
  /-- A request that is under way has found nothing. -/
  missed : ∀ id st w, s.stages id = some st → st.work = some w → .missed id w ∈ s.log
  asked : ∀ id st w, s.stages id = some st → st.work = some w → workOf host cfg w.request = some w
  login : ∀ id request, s.stages id = some (.login request) → workOf host cfg request = none
  /-- The answer of a run that has returned is stored, or is about to be stored. -/
  kept : ∀ id w response, .returned id w response ∈ s.log →
    s.idem.get w.pair = some ⟨w.pair, w.digest host, response⟩ ∨
      ∃ st raw, s.stages id = some st ∧ st.work = some w ∧ st.Returned raw ∧
        response = okResponse host cfg w raw
  /-- What has happened agrees with the runs that have returned. -/
  settled : Settled host cfg s.log

lemma inv_initial (clock : ℤ) : Inv host cfg (.initial cfg clock) :=
  ⟨fun _ _ _ _ _ _ h => (by cases h), fun _ _ _ h => (by cases h), fun _ _ _ h => (by cases h),
    fun _ _ _ h => (by cases h), fun _ _ h => (by cases h), fun _ _ _ h => (by cases h),
    List.Pairwise.nil⟩

lemma Inv.returned_eq (hs : Inv host cfg s) (hst : s.stages id = some st) (hw : st.work = some w)
    (hreturned : .returned id' w' response ∈ s.log) (hpair : w'.pair = w.pair) :
    ∃ raw, st.Returned raw ∧ w' = w ∧ response = okResponse host cfg w raw := by
  rcases hs.kept id' w' response hreturned with hrow | ⟨st', raw, hst', hw', hraw, hresponse⟩
  · rw [hpair, hs.fresh id st w hst hw] at hrow
    cases hrow
  · obtain rfl := hs.apart id' id st' st w' w hst' hst hw' hw hpair
    obtain rfl := Option.some.inj (hst'.symm.trans hst)
    obtain rfl := Option.some.inj (hw'.symm.trans hw)
    exact ⟨raw, hraw, rfl, hresponse⟩

/-- Nothing that matters to the requests has changed. -/
lemma Inv.congr {s' : State} (hs : Inv host cfg s) (hstages : s'.stages = s.stages)
    (hidem : s'.idem = s.idem) (hlog : s'.log = s.log) : Inv host cfg s' := by
  refine ⟨?_, ?_, ?_, ?_, ?_, ?_, ?_⟩
  · rw [hstages]
    exact hs.apart
  · rw [hstages, hidem]
    exact hs.fresh
  · rw [hstages, hlog]
    exact hs.missed
  · rw [hstages]
    exact hs.asked
  · rw [hstages]
    exact hs.login
  · rw [hlog, hidem, hstages]
    exact hs.kept
  · rw [hlog]
    exact hs.settled

/-- A request that is under way goes on. -/
lemma Inv.moved (hs : Inv host cfg s) (hst : s.stages id = some st) (hw : st.work = some w)
    (hw' : st'.work = some w) (hreturned : ∀ raw, st.Returned raw → st'.Returned raw) :
    Inv host cfg (s.withStage id st') := by
  -- the stages of the requests, with the work that they had before
  have hold : ∀ id' st₁ w₁, (s.withStage id st').stages id' = some st₁ → st₁.work = some w₁ →
      ∃ st₀, s.stages id' = some st₀ ∧ st₀.work = some w₁ := by
    intro id' st₁ w₁ hst₁ hw₁
    by_cases hid : id' = id
    · subst hid
      rw [stages_self] at hst₁
      obtain rfl := Option.some.inj hst₁
      exact ⟨st, hst, hw.trans (hw'.symm.trans hw₁)⟩
    · rw [stages_of_ne hid] at hst₁
      exact ⟨st₁, hst₁, hw₁⟩
  refine ⟨?_, ?_, ?_, ?_, ?_, ?_, hs.settled⟩
  · intro i j st₁ st₂ w₁ w₂ h₁ h₂ hw₁ hw₂ hpair
    obtain ⟨st₁', h₁', hw₁'⟩ := hold i st₁ w₁ h₁ hw₁
    obtain ⟨st₂', h₂', hw₂'⟩ := hold j st₂ w₂ h₂ hw₂
    exact hs.apart i j st₁' st₂' w₁ w₂ h₁' h₂' hw₁' hw₂' hpair
  · intro i st₁ w₁ h₁ hw₁
    obtain ⟨st₁', h₁', hw₁'⟩ := hold i st₁ w₁ h₁ hw₁
    exact hs.fresh i st₁' w₁ h₁' hw₁'
  · intro i st₁ w₁ h₁ hw₁
    obtain ⟨st₁', h₁', hw₁'⟩ := hold i st₁ w₁ h₁ hw₁
    exact hs.missed i st₁' w₁ h₁' hw₁'
  · intro i st₁ w₁ h₁ hw₁
    obtain ⟨st₁', h₁', hw₁'⟩ := hold i st₁ w₁ h₁ hw₁
    exact hs.asked i st₁' w₁ h₁' hw₁'
  · intro i request h₁
    by_cases hid : i = id
    · subst hid
      rw [stages_self] at h₁
      obtain rfl := Option.some.inj h₁
      cases hw'
    · rw [stages_of_ne hid] at h₁
      exact hs.login i request h₁
  · intro i w₁ response hlog
    rcases hs.kept i w₁ response hlog with hrow | ⟨st₁, raw, h₁, hw₁, hraw, hresponse⟩
    · exact .inl hrow
    · refine .inr ?_
      by_cases hid : i = id
      · subst hid
        obtain rfl := Option.some.inj (h₁.symm.trans hst)
        obtain rfl := Option.some.inj (hw₁.symm.trans hw)
        exact ⟨st', raw, stages_self, hw', hreturned raw hraw, hresponse⟩
      · exact ⟨st₁, raw, (stages_of_ne hid).trans h₁, hw₁, hraw, hresponse⟩

/-- A request that has no answer to store is not under way any more. -/
lemma Inv.ended (hs : Inv host cfg s) (hst : ∀ st raw, s.stages id = some st → ¬ st.Returned raw)
    (hw' : st'.work = none)
    (hlogin : ∀ request, st' = .login request → workOf host cfg request = none) :
    Inv host cfg (s.withStage id st') := by
  have hold : ∀ id' st₁ w₁, (s.withStage id st').stages id' = some st₁ →
      st₁.work = some w₁ → s.stages id' = some st₁ := by
    intro id' st₁ w₁ hst₁ hw₁
    by_cases hid : id' = id
    · subst hid
      rw [stages_self] at hst₁
      obtain rfl := Option.some.inj hst₁
      rw [hw'] at hw₁
      cases hw₁
    · rwa [stages_of_ne hid] at hst₁
  refine ⟨?_, ?_, ?_, ?_, ?_, ?_, hs.settled⟩
  · intro i j st₁ st₂ w₁ w₂ h₁ h₂ hw₁ hw₂ hpair
    exact hs.apart i j st₁ st₂ w₁ w₂ (hold i st₁ w₁ h₁ hw₁) (hold j st₂ w₂ h₂ hw₂) hw₁ hw₂ hpair
  · intro i st₁ w₁ h₁ hw₁
    exact hs.fresh i st₁ w₁ (hold i st₁ w₁ h₁ hw₁) hw₁
  · intro i st₁ w₁ h₁ hw₁
    exact hs.missed i st₁ w₁ (hold i st₁ w₁ h₁ hw₁) hw₁
  · intro i st₁ w₁ h₁ hw₁
    exact hs.asked i st₁ w₁ (hold i st₁ w₁ h₁ hw₁) hw₁
  · intro i request h₁
    by_cases hid : i = id
    · subst hid
      rw [stages_self] at h₁
      exact hlogin request (Option.some.inj h₁)
    · rw [stages_of_ne hid] at h₁
      exact hs.login i request h₁
  · intro i w₁ response hlog
    rcases hs.kept i w₁ response hlog with hrow | ⟨st₁, raw, h₁, hw₁, hraw, hresponse⟩
    · exact .inl hrow
    · have hid : i ≠ id := by
        rintro rfl
        exact hst st₁ raw h₁ hraw
      exact .inr ⟨st₁, raw, (stages_of_ne hid).trans h₁, hw₁, hraw, hresponse⟩

lemma Inv.logged (hs : Inv host cfg s)
    (hfollows : ∀ id w response, .returned id w response ∈ s.log → Follows host cfg w response e)
    (hkept : ∀ id w response, e = .returned id w response →
      ∃ st raw, s.stages id = some st ∧ st.work = some w ∧ st.Returned raw ∧
        response = okResponse host cfg w raw) : Inv host cfg { s with log := e :: s.log } := by
  refine ⟨hs.apart, hs.fresh, ?_, hs.asked, hs.login, ?_, ?_⟩
  · exact fun i st w h hw => List.mem_cons_of_mem _ (hs.missed i st w h hw)
  · intro i w response hmem
    rcases List.mem_cons.mp hmem with heq | hmem
    · exact .inr (hkept i w response heq.symm)
    · exact hs.kept i w response hmem
  · refine List.pairwise_cons.mpr ⟨?_, hs.settled⟩
    intro earlier hearlier i w response heq
    exact hfollows i w response (heq ▸ hearlier)

lemma Inv.answer (hs : Inv host cfg s) (hst : ∀ st raw, s.stages id = some st → ¬ st.Returned raw)
    {request : Option Fields} (hfollows : ∀ id' w response', .returned id' w response' ∈ s.log →
      Follows host cfg w response' (.answered id request response)) :
    Inv host cfg (s.answer id request response) :=
  (hs.ended hst rfl fun _ h => (by cases h)).logged hfollows fun _ _ _ h => (by cases h)

/-- A request ends without an answer of an implementation. -/
lemma Inv.refuse (hs : Inv host cfg s) (hst : s.stages id = some st) (hw : st.work = some w)
    (hnot : ∀ raw, ¬ st.Returned raw) :
    Inv host cfg (s.answer id (some w.request) response) := by
  refine hs.answer (fun st₀ raw hst₀ => ?_) fun id' w' response' hreturned => ?_
  · obtain rfl := Option.some.inj (hst.symm.trans hst₀)
    exact hnot raw
  · intro w₁ hw₁ hpair
    obtain rfl := Option.some.inj ((hs.asked id st w hst hw).symm.trans hw₁)
    obtain ⟨raw, hraw, -⟩ := hs.returned_eq hst hw hreturned hpair.symm
    exact absurd hraw (hnot raw)

/-! ### The store -/

lemma Inv.stored (hs : Inv host cfg s) (hst : s.stages id = some st) (hw : st.work = some w)
    (hraw : st.Returned raw) :
    Inv host cfg { s.answer id (some w.request) (okResponse host cfg w raw) with
      idem := s.idem.insertOrReplace ⟨w.pair, w.digest host, okResponse host cfg w raw⟩ } := by
  have hother : ∀ i st₁ w₁, (s.withStage id (.answered (okResponse host cfg w raw))).stages i =
      some st₁ → st₁.work = some w₁ → i ≠ id ∧ s.stages i = some st₁ := by
    intro i st₁ w₁ h₁ hw₁
    by_cases hi : i = id
    · subst hi
      rw [stages_self] at h₁
      obtain rfl := Option.some.inj h₁
      cases hw₁
    · exact ⟨hi, (stages_of_ne hi).symm.trans h₁⟩
  have hget : ∀ pair, (s.idem.insertOrReplace
      (⟨w.pair, w.digest host, okResponse host cfg w raw⟩ : IdemRow)).get pair =
        if w.pair = pair then some ⟨w.pair, w.digest host, okResponse host cfg w raw⟩
        else s.idem.get pair := fun pair => Rows.get_insertOrReplace s.idem _ pair
  refine ⟨?_, ?_, ?_, ?_, ?_, ?_, ?_⟩
  · intro i j st₁ st₂ w₁ w₂ h₁ h₂ hw₁ hw₂ hpair
    exact hs.apart i j st₁ st₂ w₁ w₂ (hother i st₁ w₁ h₁ hw₁).2 (hother j st₂ w₂ h₂ hw₂).2 hw₁ hw₂
      hpair
  · intro i st₁ w₁ h₁ hw₁
    obtain ⟨hi, h₁'⟩ := hother i st₁ w₁ h₁ hw₁
    have hpair : w.pair ≠ w₁.pair := fun hpair =>
      hi (hs.apart id i st st₁ w w₁ hst h₁' hw hw₁ hpair).symm
    exact ((hget w₁.pair).trans (if_neg hpair)).trans (hs.fresh i st₁ w₁ h₁' hw₁)
  · intro i st₁ w₁ h₁ hw₁
    exact List.mem_cons_of_mem _ (hs.missed i st₁ w₁ (hother i st₁ w₁ h₁ hw₁).2 hw₁)
  · intro i st₁ w₁ h₁ hw₁
    exact hs.asked i st₁ w₁ (hother i st₁ w₁ h₁ hw₁).2 hw₁
  · intro i request h₁
    have hi : i ≠ id := by
      rintro rfl
      have hself : some (Stage.answered (okResponse host cfg w raw)) = some (.login request) :=
        stages_self.symm.trans h₁
      cases hself
    exact hs.login i request ((stages_of_ne hi).symm.trans h₁)
  · intro i w₁ response hmem
    rcases List.mem_cons.mp hmem with heq | hmem
    · cases heq
    by_cases hpair : w₁.pair = w.pair
    · obtain ⟨raw', hraw', rfl, rfl⟩ := hs.returned_eq hst hw hmem hpair
      obtain rfl : raw' = raw := by
        have hsame := Option.some.inj (hraw'.symm.trans hraw)
        exact Result.returned.inj hsame
      exact .inl ((hget _).trans (if_pos rfl))
    · rcases hs.kept i w₁ response hmem with hrow | ⟨st₁, raw₁, h₁, hw₁, hraw₁, hresponse⟩
      · exact .inl (((hget _).trans (if_neg (Ne.symm hpair))).trans hrow)
      · have hi : i ≠ id := by
          rintro rfl
          obtain rfl := Option.some.inj (h₁.symm.trans hst)
          exact hpair (congrArg Work.pair (Option.some.inj (hw₁.symm.trans hw)))
        exact .inr ⟨st₁, raw₁, (stages_of_ne hi).trans h₁, hw₁, hraw₁, hresponse⟩
  · refine List.pairwise_cons.mpr ⟨?_, hs.settled⟩
    intro earlier hearlier i w₁ response heq
    subst heq
    intro w₂ hw₂ hpair
    obtain rfl := Option.some.inj ((hs.asked id st w hst hw).symm.trans hw₂)
    obtain ⟨raw', hraw', rfl, rfl⟩ := hs.returned_eq hst hw hearlier hpair.symm
    obtain rfl : raw' = raw := Result.returned.inj (Option.some.inj (hraw'.symm.trans hraw))
    exact ⟨fun _ => rfl, fun hne => absurd rfl hne⟩

/-! ### Dispatch -/

lemma workOf_eq_none {op : String} (hop : Protocol.get request "operation" = some (.str op))
    (h : op ∈ Protocol.handshakeOperations ∨ op ∈ Protocol.credentialedOperations ∨
      op ∉ Protocol.allowedOperations ∨ op ∉ cfg.opImpls) : workOf host cfg request = none := by
  rw [workOf, hop]
  exact if_pos h

lemma workOf_request (h : workOf host cfg request = some w) : w.request = request := by
  unfold workOf at h
  split at h
  · split at h
    · cases h
    · obtain ⟨job, -, rfl⟩ := Option.map_eq_some_iff.mp h
      rfl
  · cases h

lemma Inv.miss (hs : Inv host cfg s) (hidle : s.stages id = none)
    (hw : workOf host cfg request = some w) (hrow : s.idem.get w.pair = none)
    (hapart : ∀ id' w', .missed id' w' ∈ s.log → w'.pair = w.pair →
      ∃ response, s.stages id' = some (.answered response)) :
    Inv host cfg { s.withStage id (.missed w) with log := .missed id w :: s.log } := by
  have hother : ∀ i st₁ w₁, (s.withStage id (.missed w)).stages i = some st₁ → st₁.work = some w₁ →
      (i = id ∧ w₁ = w) ∨ (i ≠ id ∧ s.stages i = some st₁) := by
    intro i st₁ w₁ h₁ hw₁
    by_cases hi : i = id
    · subst hi
      rw [stages_self] at h₁
      obtain rfl := Option.some.inj h₁
      exact .inl ⟨rfl, (Option.some.inj hw₁).symm⟩
    · exact .inr ⟨hi, (stages_of_ne hi).symm.trans h₁⟩
  -- no other request of the pair is under way
  have hnone : ∀ i st₁ w₁, s.stages i = some st₁ → st₁.work = some w₁ → w₁.pair ≠ w.pair := by
    intro i st₁ w₁ h₁ hw₁ hpair
    obtain ⟨response, hanswered⟩ := hapart i w₁ (hs.missed i st₁ w₁ h₁ hw₁) hpair
    obtain rfl := Option.some.inj (h₁.symm.trans hanswered)
    cases hw₁
  refine ⟨?_, ?_, ?_, ?_, ?_, ?_, ?_⟩
  · intro i j st₁ st₂ w₁ w₂ h₁ h₂ hw₁ hw₂ hpair
    rcases hother i st₁ w₁ h₁ hw₁ with ⟨rfl, rfl⟩ | ⟨-, h₁'⟩
    · rcases hother j st₂ w₂ h₂ hw₂ with ⟨rfl, -⟩ | ⟨-, h₂'⟩
      · rfl
      · exact absurd hpair.symm (hnone j st₂ w₂ h₂' hw₂)
    · rcases hother j st₂ w₂ h₂ hw₂ with ⟨rfl, rfl⟩ | ⟨-, h₂'⟩
      · exact absurd hpair (hnone i st₁ w₁ h₁' hw₁)
      · exact hs.apart i j st₁ st₂ w₁ w₂ h₁' h₂' hw₁ hw₂ hpair
  · intro i st₁ w₁ h₁ hw₁
    rcases hother i st₁ w₁ h₁ hw₁ with ⟨-, rfl⟩ | ⟨-, h₁'⟩
    · exact hrow
    · exact hs.fresh i st₁ w₁ h₁' hw₁
  · intro i st₁ w₁ h₁ hw₁
    rcases hother i st₁ w₁ h₁ hw₁ with ⟨rfl, rfl⟩ | ⟨-, h₁'⟩
    · exact List.mem_cons_self
    · exact List.mem_cons_of_mem _ (hs.missed i st₁ w₁ h₁' hw₁)
  · intro i st₁ w₁ h₁ hw₁
    rcases hother i st₁ w₁ h₁ hw₁ with ⟨-, rfl⟩ | ⟨-, h₁'⟩
    · rw [workOf_request hw]
      exact hw
    · exact hs.asked i st₁ w₁ h₁' hw₁
  · intro i request' h₁
    have hi : i ≠ id := by
      rintro rfl
      have hself : some (Stage.missed w) = some (.login request') := stages_self.symm.trans h₁
      cases hself
    exact hs.login i request' ((stages_of_ne hi).symm.trans h₁)
  · intro i w₁ response hmem
    rcases List.mem_cons.mp hmem with heq | hmem
    · cases heq
    rcases hs.kept i w₁ response hmem with hstored | ⟨st₁, raw, h₁, hrest⟩
    · exact .inl hstored
    · refine .inr ⟨st₁, raw, (stages_of_ne ?_).trans h₁, hrest⟩
      rintro rfl
      rw [hidle] at h₁
      cases h₁
  · refine List.pairwise_cons.mpr ⟨?_, hs.settled⟩
    intro earlier hearlier i w₁ response heq
    subst heq
    intro hpair
    rcases hs.kept i w₁ response hearlier with hstored | ⟨st₁, raw, h₁, hw₁, -⟩
    · rw [← hpair, hrow] at hstored
      cases hstored
    · exact hnone i st₁ w₁ h₁ hw₁ hpair.symm

lemma Inv.replay (hs : Inv host cfg s) (hidle : s.stages id = none)
    (hw : workOf host cfg request = some w) {row : IdemRow} (hrow : s.idem.get w.pair = some row)
    (hsame : row.digest = w.digest host → response = row.response)
    (hother : row.digest ≠ w.digest host →
      response = denied host cfg (some request) "job_op_conflict") :
    Inv host cfg (s.answer id (some request) response) := by
  refine hs.answer (fun st₀ raw hst₀ => ?_) fun i w₁ response' hreturned => ?_
  · rw [hidle] at hst₀
    cases hst₀
  · intro w₂ hw₂ hpair
    obtain rfl := Option.some.inj (hw.symm.trans hw₂)
    rcases hs.kept i w₁ response' hreturned with hstored | ⟨st₁, raw, h₁, hw₁, -⟩
    · rw [← hpair, hrow] at hstored
      obtain rfl := Option.some.inj hstored
      exact ⟨fun h => hsame h.symm, fun h => hother (Ne.symm h)⟩
    · have hnone := hs.fresh i st₁ w₁ h₁ hw₁
      rw [← hpair, hrow] at hnone
      cases hnone

lemma Inv.dispatchRequest (hs : Inv host cfg s) (hidle : s.stages id = none)
    (hapart : ∀ w, workOf host cfg request = some w → ∀ id' w', .missed id' w' ∈ s.log →
      w'.pair = w.pair → ∃ response, s.stages id' = some (.answered response)) :
    Inv host cfg (dispatchRequest host cfg s id request) := by
  have hnot : ∀ st raw, s.stages id = some st → ¬ st.Returned raw := by
    intro st raw hst
    rw [hidle] at hst
    cases hst
  -- a request that asks for no work agrees with every run
  have hanswer : ∀ response, workOf host cfg request = none →
      Inv host cfg (s.answer id (some request) response) := by
    intro response hnone
    refine hs.answer hnot fun _ _ _ _ w hw => ?_
    rw [hnone] at hw
    cases hw
  unfold AgentCore.dispatchRequest
  split
  · rename_i op hop
    split
    · rename_i hhandshake
      exact hanswer _ (workOf_eq_none hop (.inl hhandshake))
    split
    · rename_i hcredentialed
      have hnone : workOf host cfg request = none := workOf_eq_none hop (.inr (.inl hcredentialed))
      split
      · exact hanswer _ hnone
      split
      · exact hanswer _ hnone
      split
      · refine hs.ended hnot rfl fun request' h => ?_
        obtain rfl := Stage.login.inj h
        exact hnone
      · exact hanswer _ hnone
    split
    · rename_i hrefused
      exact hanswer _ (workOf_eq_none hop (.inr (.inr hrefused)))
    split
    · rename_i hnone
      exact hanswer _ hnone
    rename_i w hw
    split
    · rename_i row hrow
      split
      · rename_i hne
        exact hs.replay hidle hw hrow (fun h => absurd h hne) fun _ => rfl
      · rename_i heq
        exact hs.replay hidle hw hrow (fun _ => rfl) fun h => absurd (not_not.mp heq) h
    · rename_i hrow
      exact hs.miss hidle hw hrow (hapart w hw)
  · rename_i hop
    refine hanswer _ ?_
    unfold workOf
    split
    · rename_i op hop'
      exact absurd hop' (hop op)
    · rfl

lemma Inv.dispatch (hs : Inv host cfg s) (ha : Apart host cfg s (.dispatch id)) :
    Inv host cfg (dispatch host cfg s id) := by
  have hanswer : s.stages id = none → ∀ response, Inv host cfg (s.answer id none response) := by
    intro hidle response
    refine hs.answer (fun st raw hst => ?_) fun _ _ _ _ => trivial
    rw [hidle] at hst
    cases hst
  unfold AgentCore.dispatch
  split
  · rename_i checked hidle haccepted
    exact hs.dispatchRequest hidle (ha checked haccepted)
  · rename_i refusal hidle hrefused
    split <;> exact hanswer hidle _
  · exact hs

/-! ### The steps of a request under way -/

lemma Inv.prepare (hs : Inv host cfg s) (hst : s.stages id = some (.missed w)) :
    Inv host cfg (prepare host cfg s id w) := by
  have hmoved : ∀ st', st'.work = some w → Inv host cfg (s.withStage id st') := fun st' hw' =>
    hs.moved hst rfl hw' fun _ hraw => (by cases hraw)
  unfold AgentCore.prepare
  split
  · exact hmoved _ rfl
  split
  · exact hmoved _ rfl
  split
  · split
    · exact hmoved _ rfl
    · exact (hmoved _ rfl).congr rfl rfl rfl
  · exact hmoved _ rfl

lemma Inv.lockRuntime (hs : Inv host cfg s) (hst : s.stages id = some (.permitted w runtime)) :
    Inv host cfg (lockRuntime s id w runtime) := by
  have hmoved : ∀ st', st'.work = some w → Inv host cfg (s.withStage id st') := fun st' hw' =>
    hs.moved hst rfl hw' fun _ hraw => (by cases hraw)
  unfold AgentCore.lockRuntime
  split
  · exact hmoved _ rfl
  · exact (hmoved _ rfl).congr rfl rfl rfl

lemma Inv.begin (hs : Inv host cfg s) (hst : s.stages id = some (.resolving w runtime)) :
    Inv host cfg { s.withStage id (.running w runtime) with log := .began id w :: s.log } := by
  have hmoved : Inv host cfg (s.withStage id (.running w runtime)) :=
    hs.moved hst rfl rfl fun _ hraw => (by cases hraw)
  refine hmoved.logged (fun i w₁ response hreturned hpair => ?_) fun _ _ _ h => (by cases h)
  obtain ⟨raw, hraw, -⟩ := hs.returned_eq hst rfl hreturned hpair.symm
  cases hraw

lemma Inv.finish (hs : Inv host cfg s) (hst : s.stages id = some (.running w runtime)) (raw : Fields) :
    Inv host cfg { s.withStage id (w.over runtime (.returned raw)) with
      log := .returned id w (okResponse host cfg w raw) :: s.log } := by
  have hmoved : Inv host cfg (s.withStage id (w.over runtime (.returned raw))) :=
    hs.moved hst rfl (work_over _) fun _ hraw => (by cases hraw)
  refine hmoved.logged (fun i w₁ response hreturned hpair => ?_) fun i w₁ response h => ?_
  · obtain ⟨raw', hraw', -⟩ := hs.returned_eq hst rfl hreturned hpair.symm
    cases hraw'
  · obtain ⟨rfl, rfl, rfl⟩ := Event.returned.inj h
    exact ⟨_, raw, stages_self, work_over _, result_over _, rfl⟩

lemma Inv.respond (hs : Inv host cfg s) {result : Result}
    (hst : s.stages id = some (.left w result)) : Inv host cfg (respond host cfg s id w result) := by
  cases result with
  | returned raw => exact hs.stored hst rfl rfl
  | refused reasonCode => exact hs.refuse hst rfl fun _ hraw => (by cases hraw)
  | raised => exact hs.refuse hst rfl fun _ hraw => (by cases hraw)

lemma inv_step (hs : Inv host cfg s) (ha : Apart host cfg s a) : Inv host cfg (step host cfg s a) := by
  cases a with
  | channel a => exact hs.congr rfl rfl rfl
  | dispatch id => exact hs.dispatch ha
  | validated id result =>
    rw [step]
    split
    · rename_i request hst
      refine hs.answer (fun st raw hst' => ?_) fun i w response hreturned => ?_
      · obtain rfl := Option.some.inj (hst.symm.trans hst')
        intro hraw
        cases hraw
      · intro w' hw'
        rw [hs.login id request hst] at hw'
        cases hw'
    · exact hs
  | prepare id =>
    rw [step]
    split
    · rename_i w hst
      exact hs.prepare hst
    · exact hs
  | lock id =>
    rw [step]
    split
    · rename_i w runtime hst
      exact hs.lockRuntime hst
    · exact hs
  | resolved id failure =>
    rw [step]
    split
    · rename_i w runtime hst
      split
      · exact hs.begin hst
      · exact hs
      · exact hs.moved hst rfl (work_over _) fun _ hraw => (by cases hraw)
    · exact hs
  | finish id result =>
    rw [step]
    split
    · rename_i w runtime hst
      cases result with
      | returned raw => exact hs.finish hst raw
      | refused reasonCode | raised =>
        exact hs.moved hst rfl (work_over _) fun _ hraw => (by cases hraw)
    · exact hs
  | unlock id =>
    rw [step]
    split
    · rename_i w runtime result hst
      have hmoved : Inv host cfg (s.withStage id (.unlocked w result)) :=
        hs.moved hst rfl rfl fun _ hraw => hraw
      exact hmoved.congr rfl rfl rfl
    · exact hs
  | leave id =>
    rw [step]
    split
    · rename_i w result hst
      have hmoved : Inv host cfg (s.withStage id (.left w result)) :=
        hs.moved hst rfl rfl fun _ hraw => hraw
      exact hmoved.congr rfl rfl rfl
    · exact hs
  | answer id =>
    rw [step]
    split
    · rename_i w result hst
      exact hs.respond hst
    · exact hs
  | drain => exact hs.congr rfl rfl rfl

theorem settled_run (clock : ℤ) {as : List Action}
    (has : StepsMeet (step host cfg) (Apart host cfg) (.initial cfg clock) as) :
    Settled host cfg (run (step host cfg) (.initial cfg clock) as).log :=
  (run_invariant_of_meets (P := Inv host cfg) (fun _ _ hs ha => inv_step hs ha) (inv_initial clock)
    has).settled

/-! ### The locks -/

def holdsAt : Option Stage → String → Prop
  | some (.resolving w runtime), r | some (.running w runtime), r => w.op ∈ mutating ∧ r = runtime
  | some (.ran _ runtime _), r => r = runtime
  | _, _ => False

/-- The lock table says which request is at a place where it holds a lock. -/
structure Locked (s : State) : Prop where
  held : Locks.Held (fun id => holdsAt (s.stages id)) s.locks.perRuntime
  /-- A request with a permit changes its runtime. -/
  permitted : ∀ id w runtime, s.stages id = some (.permitted w runtime) → w.op ∈ mutating

lemma locked_initial (clock : ℤ) : Locked (.initial cfg clock) :=
  ⟨Locks.held_free, fun _ _ _ h => (by cases h)⟩

lemma permitted_withStage (hs : Locked s) (hst' : ∀ w r, st' = .permitted w r → w.op ∈ mutating) :
    ∀ i w r, (s.withStage id st').stages i = some (.permitted w r) → w.op ∈ mutating := by
  intro i w r h
  by_cases hi : i = id
  · subst hi
    rw [stages_self] at h
    exact hst' w r (Option.some.inj h)
  · rw [stages_of_ne hi] at h
    exact hs.permitted i w r h

lemma Locked.moved (hs : Locked s) (hhold : ∀ r, holdsAt (some st') r ↔ holdsAt (s.stages id) r)
    (hst' : ∀ w r, st' = .permitted w r → w.op ∈ mutating) : Locked (s.withStage id st') :=
  ⟨hs.held.moved holdsAt hhold, permitted_withStage hs hst'⟩

lemma Locked.idle (hs : Locked s) (hold : ∀ r, ¬ holdsAt (s.stages id) r)
    (hnew : ∀ r, ¬ holdsAt (some st') r) (hst' : ∀ w r, st' = .permitted w r → w.op ∈ mutating) :
    Locked (s.withStage id st') :=
  hs.moved (fun r => iff_of_false (hnew r) (hold r)) hst'

lemma Locked.congr {s' : State} (hs : Locked s) (hstages : s'.stages = s.stages)
    (hlocks : s'.locks.perRuntime = s.locks.perRuntime) : Locked s' := by
  refine ⟨?_, ?_⟩
  · rw [hstages, hlocks]
    exact hs.held
  · rw [hstages]
    exact hs.permitted

lemma Locked.answer (hs : Locked s) (hold : ∀ r, ¬ holdsAt (s.stages id) r)
    {request : Option Fields} : Locked (s.answer id request response) := by
  have hidle : Locked (s.withStage id (.answered response)) :=
    hs.idle hold (fun _ h => h) fun _ _ h => (by cases h)
  exact hidle.congr rfl rfl

lemma holdsAt_over (result : Result) (r : String) :
    holdsAt (some (w.over runtime result)) r ↔ w.op ∈ mutating ∧ r = runtime := by
  unfold Work.over
  split
  · rename_i hop
    exact ⟨fun h => ⟨hop, h⟩, fun h => h.2⟩
  · rename_i hop
    exact ⟨fun h => h.elim, fun h => hop h.1⟩

lemma over_ne_permitted (result : Result) (w' : Work) (r : String) :
    w.over runtime result ≠ .permitted w' r := by
  unfold Work.over
  split <;> nofun

lemma Locked.dispatch (hs : Locked s) : Locked (dispatch host cfg s id) := by
  unfold AgentCore.dispatch
  split
  · rename_i checked hidle _
    have hold : ∀ r, ¬ holdsAt (s.stages id) r := by
      intro r
      rw [hidle]
      exact fun h => h
    unfold AgentCore.dispatchRequest
    have hmissed : ∀ w, Locked (s.withStage id (.missed w)) := fun w =>
      hs.idle hold (fun _ h => h) fun _ _ h => (by cases h)
    repeat' split
    all_goals
      first
      | exact hs.answer hold
      | exact hs.idle hold (fun _ h => h) fun _ _ h => (by cases h)
      | exact (hmissed _).congr rfl rfl
  · rename_i refusal hidle _
    have hold : ∀ r, ¬ holdsAt (s.stages id) r := by
      intro r
      rw [hidle]
      exact fun h => h
    split <;> exact hs.answer hold
  · exact hs

lemma Locked.prepare (hs : Locked s) (hst : s.stages id = some (.missed w)) :
    Locked (prepare host cfg s id w) := by
  have hold : ∀ r, ¬ holdsAt (s.stages id) r := by
    intro r
    rw [hst]
    exact fun h => h
  unfold AgentCore.prepare
  split
  · exact hs.idle hold (fun _ h => h) fun _ _ h => (by cases h)
  rename_i runtime _
  split
  · exact hs.idle hold (fun _ h => h) fun _ _ h => (by cases h)
  split
  · rename_i hop
    split
    · exact hs.idle hold (fun _ h => h) fun _ _ h => (by cases h)
    · rename_i locks hlocks
      have hidle : Locked (s.withStage id (.permitted w runtime)) := by
        refine hs.idle hold (fun _ h => h) fun w' r h => ?_
        obtain ⟨rfl, -⟩ := Stage.permitted.inj h
        exact hop
      exact hidle.congr rfl (RuntimeLocks.perRuntime_of_takePermit hlocks)
  · rename_i hop
    exact hs.idle hold (fun r h => hop h.1) fun _ _ h => (by cases h)

lemma Locked.lockRuntime (hs : Locked s) (hst : s.stages id = some (.permitted w runtime)) :
    Locked (lockRuntime s id w runtime) := by
  have hold : ∀ r, ¬ holdsAt (s.stages id) r := by
    intro r
    rw [hst]
    exact fun h => h
  unfold AgentCore.lockRuntime
  split
  · exact hs.idle hold (fun _ h => h) fun _ _ h => (by cases h)
  · rename_i locks hlocks
    obtain ⟨hfree, htaken⟩ := RuntimeLocks.perRuntime_of_lock hlocks
    refine ⟨?_, permitted_withStage hs fun _ _ h => (by cases h)⟩
    rw [htaken]
    refine hs.held.moved_take holdsAt hfree fun r => ?_
    constructor
    · exact fun h => .inr h.2
    · rintro (h | rfl)
      · exact absurd h (hold r)
      · exact ⟨hs.permitted id w r hst, rfl⟩

lemma locked_step (hs : Locked s) (a : Action) : Locked (step host cfg s a) := by
  cases a with
  | channel a => exact hs.congr rfl rfl
  | dispatch id => exact hs.dispatch
  | validated id result =>
    rw [step]
    split
    · rename_i request hst
      refine hs.answer fun r => ?_
      rw [hst]
      exact fun h => h
    · exact hs
  | prepare id =>
    rw [step]
    split
    · rename_i w hst
      exact hs.prepare hst
    · exact hs
  | lock id =>
    rw [step]
    split
    · rename_i w runtime hst
      exact hs.lockRuntime hst
    · exact hs
  | resolved id failure =>
    rw [step]
    split
    · rename_i w runtime hst
      split
      · have hmoved : Locked (s.withStage id (.running w runtime)) := by
          refine hs.moved (fun r => ?_) fun _ _ h => (by cases h)
          rw [hst]
          exact Iff.rfl
        exact hmoved.congr rfl rfl
      · exact hs
      · refine hs.moved (fun r => ?_) fun w' r h => absurd h (over_ne_permitted _ w' r)
        rw [hst]
        exact holdsAt_over _ r
    · exact hs
  | finish id result =>
    rw [step]
    split
    · rename_i w runtime hst
      have hmoved : Locked (s.withStage id (w.over runtime result)) := by
        refine hs.moved (fun r => ?_) fun w' r h => absurd h (over_ne_permitted _ w' r)
        rw [hst]
        exact holdsAt_over _ r
      cases result with
      | returned raw => exact hmoved.congr rfl rfl
      | refused reasonCode | raised => exact hmoved
    · exact hs
  | unlock id =>
    rw [step]
    split
    · refine ⟨?_, permitted_withStage hs fun _ _ h => (by cases h)⟩
      exact hs.held.moved_release holdsAt fun r h => h
    · exact hs
  | leave id =>
    rw [step]
    split
    · rename_i w result hst
      have hidle : Locked (s.withStage id (.left w result)) := by
        refine hs.idle (fun r => ?_) (fun _ h => h) fun _ _ h => (by cases h)
        rw [hst]
        exact fun h => h
      exact hidle.congr rfl rfl
    · exact hs
  | answer id =>
    rw [step]
    split
    · rename_i w result hst
      have hold : ∀ r, ¬ holdsAt (s.stages id) r := by
        intro r
        rw [hst]
        exact fun h => h
      cases result with
      | returned raw =>
        have hanswer : Locked (s.answer id (some w.request) (okResponse host cfg w raw)) :=
          hs.answer hold
        exact hanswer.congr rfl rfl
      | refused reasonCode | raised => exact hs.answer hold
    · exact hs
  | drain => exact hs.congr rfl rfl

lemma locked_run (clock : ℤ) (as : List Action) :
    Locked (run (step host cfg) (.initial cfg clock) as) :=
  run_invariant (P := Locked) (fun _ a hs => locked_step hs a) (locked_initial clock) as

/-! ### The store keeps what it has -/

/-- An answer for a job and an operation is never forgotten. -/
lemma stored_step (pair : Pair) (h : (s.idem.get pair).isSome) (a : Action) :
    ((step host cfg s a).idem.get pair).isSome := by
  cases a with
  | answer id =>
    rw [step]
    split
    · rename_i w result _
      cases result with
      | returned raw =>
        have hget := Rows.get_insertOrReplace s.idem
          (⟨w.pair, w.digest host, okResponse host cfg w raw⟩ : IdemRow) pair
        by_cases hpair : w.pair = pair
        · rw [if_pos hpair] at hget
          exact Option.isSome_iff_exists.mpr ⟨_, hget⟩
        · rw [if_neg hpair] at hget
          exact (congrArg Option.isSome hget).trans h
      | refused reasonCode | raised => exact h
    · exact h
  | dispatch id =>
    have hsame : ∀ request, (dispatchRequest host cfg s id request).idem = s.idem := by
      intro request
      unfold dispatchRequest
      repeat' split
      all_goals rfl
    rw [step, dispatch]
    split
    · rw [hsame]
      exact h
    · split <;> exact h
    · exact h
  | prepare id =>
    rw [step]
    split
    · unfold prepare
      repeat' split
      all_goals exact h
    · exact h
  | lock id =>
    rw [step]
    split
    · unfold lockRuntime
      split <;> exact h
    · exact h
  | finish id result =>
    rw [step]
    split
    · cases result <;> exact h
    · exact h
  | resolved id failure =>
    rw [step]
    split
    · split <;> exact h
    · exact h
  | validated id | unlock id | leave id =>
    rw [step]
    split <;> exact h
  | channel a | drain => exact h

/-- The answer to a request for which something is stored. -/
def replayed (host : Host) (cfg : Config) (row : IdemRow) (w : Work) : Response :=
  if row.digest = w.digest host then row.response
  else denied host cfg (some w.request) "job_op_conflict"

lemma dispatchRequest_of_stored (hw : workOf host cfg request = some w) {row : IdemRow}
    (hrow : s.idem.get w.pair = some row) :
    dispatchRequest host cfg s id request = s.answer id (some request) (replayed host cfg row w) := by
  have hrequest := workOf_request hw
  have hop := hw
  unfold workOf at hop
  split at hop
  · rename_i op hget
    split at hop
    · cases hop
    rename_i hlifecycle
    rw [not_or, not_or] at hlifecycle
    obtain ⟨hhandshake, hcredentialed, hallowed⟩ := hlifecycle
    simp only [dispatchRequest, hget, if_neg hhandshake, if_neg hcredentialed, if_neg hallowed, hw,
      hrow, replayed, hrequest]
    by_cases hsame : row.digest = w.digest host
    · rw [if_neg (not_not.mpr hsame), if_pos hsame]
    · rw [if_pos hsame, if_neg hsame]
  · cases hop

/-! ### At most once -/

/-- What the agent guarantees about the jobs after a run. -/
structure Once (host : Host) (cfg : Config) (clock : ℤ) (as : List Action) : Prop where
  /-- Two runs that change one runtime are never under way at the same time. -/
  serial : ∀ id id' w w' runtime,
    (run (step host cfg) (.initial cfg clock) as).stages id = some (.running w runtime) →
    (run (step host cfg) (.initial cfg clock) as).stages id' = some (.running w' runtime) →
    w.op ∈ mutating → w'.op ∈ mutating → id = id'
  /-- Requests that agree in what they ask for have one digest. -/
  identical : ∀ w w' : Work, (∀ name ∈ Protocol.semanticFields,
    Protocol.get w.request name = Protocol.get w'.request name) → w.digest host = w'.digest host
  /-- A request for which an answer is stored is answered when it is looked up: with this answer, or
  by a refusal if it asks for something else. -/
  replay : ∀ id checked w row,
    (run (step host cfg) (.initial cfg clock) as).stages id = none →
    (run (step host cfg) (.initial cfg clock) as).channel.verifications id =
      some (.accepted checked) →
    workOf host cfg checked.request = some w →
    (run (step host cfg) (.initial cfg clock) as).idem.get w.pair = some row →
    run (step host cfg) (.initial cfg clock) (as ++ [.dispatch id]) =
      (run (step host cfg) (.initial cfg clock) as).answer id (some w.request)
        (replayed host cfg row w)
  /-- What is stored stays. -/
  remains : ∀ pair, ((run (step host cfg) (.initial cfg clock) as).idem.get pair).isSome →
    ∀ bs, ((run (step host cfg) (.initial cfg clock) (as ++ bs)).idem.get pair).isSome
  /-- If the looks are apart, a run that returns is the last one of its job and operation. -/
  settled : StepsMeet (step host cfg) (Apart host cfg) (.initial cfg clock) as →
    Settled host cfg (run (step host cfg) (.initial cfg clock) as).log

/-- The agent does what a job asks for once, up to requests that overlap. -/
theorem once (host : Host) (cfg : Config) (clock : ℤ) (as : List Action) :
    Once host cfg clock as := by
  refine ⟨?_, ?_, ?_, ?_, settled_run clock⟩
  · intro id id' w w' runtime hid hid' hop hop'
    have hlocked : Locked (run (step host cfg) (.initial cfg clock) as) := locked_run clock as
    refine hlocked.held.unique (r := runtime) ?_ ?_
    · rw [hid]
      exact ⟨hop, rfl⟩
    · rw [hid']
      exact ⟨hop', rfl⟩
  · intro w w' hsame
    have hfields : (Protocol.semanticFields.filterMap fun name =>
        (Protocol.get w.request name).map fun v => (name, v)) =
        Protocol.semanticFields.filterMap fun name =>
          (Protocol.get w'.request name).map fun v => (name, v) := by
      refine List.filterMap_congr fun name hname => ?_
      rw [hsame name hname]
    rw [Work.digest, Work.digest, Protocol.semanticDigest, Protocol.semanticDigest, hfields]
  · intro id checked w row hidle haccepted hw hrow
    rw [run_concat, step, dispatch, hidle, haccepted, workOf_request hw]
    exact dispatchRequest_of_stored hw hrow
  · intro pair h bs
    rw [run_append]
    exact run_invariant (P := fun s : State => (s.idem.get pair).isSome) (fun _ a hs => stored_step pair hs a)
      h bs

/-! ### Runs -/

/-- The library functions, on the values of the runs below. -/
def plainHost : Host where
  crypto := Protocol.openCrypto
  intOf
    | .int n => some n
    | .bool b => some (if b then 1 else 0)
    | _ => none
  strOf
    | .str s => s
    | _ => ""
  uuidOf s := some s

def sampleConfig : Config where
  protocol := Protocol.sampleConfig
  opImpls := Protocol.provisioningOperations
  agentVersion := "1"
  manifestVersion := "m1"
  scriptManifest _ := some "approved"
  actualDigest _ := none
  scriptVersions _ := some "m1"
  hasLoginValidator := false
  agentSupervised := none

/-- The identifiers of two runtimes. -/
def runtimeA : String := "00000000-0000-4000-8000-00000000000a"

def runtimeB : String := "00000000-0000-4000-8000-00000000000b"

/-- A start of a runtime for job 7, signed and let through by the protocol. -/
def arrive (id : ℕ) (nonce runtime : String) : List Action :=
  let args := { Protocol.sampleArgs nonce 1000 20 with runtimeUuid := runtime }
  [.channel (.sign args), .channel (.verify id (Protocol.requestOf args)), .channel (.burn id),
    .dispatch id]

/-- A request that has found nothing goes through its run. -/
def perform (id : ℕ) (result : Result) : List Action :=
  [.prepare id, .lock id, .resolved id none, .finish id result, .unlock id, .leave id, .answer id]

/-- How a request has been answered. -/
def State.replied (s : State) (id : ℕ) : Option (Outcome × String × List String) :=
  match s.stages id with
  | some (.answered response) =>
    some (response.outcome, response.reasonCode, response.evidence.map (·.1))
  | _ => none

/-- The requests whose implementation has begun, the last one first. -/
def State.begun (s : State) : List (ℕ × Pair) :=
  s.log.filterMap fun
    | .began id w => some (id, w.pair)
    | _ => none

def State.isAnswered (s : State) (id : ℕ) : Bool :=
  match s.stages id with
  | some (.answered _) => true
  | _ => false

/-- Does an event leave the way free for another look? -/
def Event.allows (s : State) (pair : Pair) : Event → Bool
  | .missed id w => w.pair ≠ pair || s.isAnswered id
  | _ => true

lemma isAnswered_iff : s.isAnswered id = true ↔ ∃ response, s.stages id = some (.answered response) := by
  unfold State.isAnswered
  split
  · rename_i response hst
    exact iff_of_true rfl ⟨response, hst⟩
  · rename_i hnot
    exact iff_of_false (by simp) fun ⟨response, hst⟩ => hnot response hst

lemma allows_iff {pair : Pair} : (∀ e ∈ s.log, e.allows s pair = true) ↔
    ∀ id' w', .missed id' w' ∈ s.log → w'.pair = pair →
      ∃ response, s.stages id' = some (.answered response) := by
  constructor
  · intro h id' w' hmem hpair
    have hallows := h _ hmem
    rw [Event.allows, hpair] at hallows
    simp only [ne_eq, not_true_eq_false, decide_false, Bool.false_or] at hallows
    exact isAnswered_iff.mp hallows
  · intro h e he
    cases e with
    | missed id' w' =>
      rw [Event.allows]
      by_cases hpair : w'.pair = pair
      · rw [isAnswered_iff.mpr (h id' w' he hpair), Bool.or_true]
      · simp [hpair]
    | began | returned | answered => rfl

instance (host : Host) (cfg : Config) (s : State) (a : Action) : Decidable (Apart host cfg s a) :=
  match a with
  | .dispatch id =>
    match h : s.channel.verifications id with
    | some (.accepted checked) =>
      match hw : workOf host cfg checked.request with
      | some w =>
        decidable_of_iff (∀ e ∈ s.log, e.allows s w.pair = true) <| by
          rw [allows_iff, Apart, h]
          constructor
          · rintro hfree c hc w' hw'
            obtain rfl := Protocol.Verification.accepted.inj (Option.some.inj hc)
            obtain rfl := Option.some.inj (hw.symm.trans hw')
            exact hfree
          · exact fun hfree => hfree checked rfl w hw
      | none => .isTrue <| by
        rintro c hc w' hw'
        obtain rfl := Protocol.Verification.accepted.inj (Option.some.inj (h.symm.trans hc))
        rw [hw] at hw'
        cases hw'
    | some (.burning _) | some (.refused _) | none => .isTrue <| by
      rintro c hc
      rw [h] at hc
      cases hc
  | .channel _ | .validated _ _ | .prepare _ | .lock _ | .resolved _ _ | .finish _ _ | .unlock _
  | .leave _ | .answer _ | .drain => .isTrue trivial

/-- A start is performed; a request for the same start gets its answer, and one for another runtime
under the same job is refused. -/
def repeatedRun : List Action :=
  arrive 0 "n1" runtimeA ++ perform 0 (.returned [("pid", .int 4711)]) ++ arrive 1 "n2" runtimeA ++
    arrive 2 "n3" runtimeB

theorem once_repeatedRun :
    ([0, 1, 2].map (run (step plainHost sampleConfig) (.initial sampleConfig 1000)
        repeatedRun).replied =
        [some (.ok, "", ["pid"]), some (.ok, "", ["pid"]), some (.denied, "job_op_conflict", [])] ∧
      (run (step plainHost sampleConfig) (.initial sampleConfig 1000) repeatedRun).begun =
        [(0, 7, "START")]) ∧
    StepsMeet (step plainHost sampleConfig) (Apart plainHost sampleConfig)
      (.initial sampleConfig 1000) repeatedRun ∧
    Settled plainHost sampleConfig
      (run (step plainHost sampleConfig) (.initial sampleConfig 1000) repeatedRun).log :=
  have hrun : (_ ∧ _) ∧ StepsMeet (step plainHost sampleConfig) (Apart plainHost sampleConfig)
      (.initial sampleConfig 1000) repeatedRun := by decide +kernel
  ⟨hrun.1, hrun.2, (once plainHost sampleConfig 1000 repeatedRun).settled hrun.2⟩

/-- A start is refused by its implementation, and another request for the same start runs it again. -/
def retriedRun : List Action :=
  arrive 0 "n1" runtimeA ++ perform 0 (.refused "stage_not_complete") ++ arrive 1 "n2" runtimeA ++
    perform 1 (.returned [("pid", .int 4711)])

theorem once_broken :
    [0, 1].map (run (step plainHost sampleConfig) (.initial sampleConfig 1000) retriedRun).replied =
        [some (.denied, "stage_not_complete", []), some (.ok, "", ["pid"])] ∧
      (run (step plainHost sampleConfig) (.initial sampleConfig 1000) retriedRun).begun =
        [(1, 7, "START"), (0, 7, "START")] := by
  decide +kernel

end AgentCore
end GuvFX
