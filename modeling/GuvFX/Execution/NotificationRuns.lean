/-
# Transmissions along the runs of the dispatcher

A candidate is transmitted at most once, and a sent candidate stays sent, in every run in which no
pass gives back a candidate that a living pass works on, no pass dies between a transmission and its
record, and no message goes out whose send is reported as failed.  The candidate of a working pass
is processed by that pass alone; once its message is out, the delivery is recorded or the pass is
still about to record it.
-/
import GuvFX.Execution.Notifications

namespace GuvFX
namespace Notifications

open Runs

/-! ### What the passes work on -/

/-- The candidate and the stage of a pass that is at work. -/
def Runner.place : Runner → Option (ℕ × Stage)
  | .working _ _ _ cid stage => some (cid, stage)
  | .reaped .. | .looping .. | .ended _ | .crashed => none

def placeOf (s : State) (p : ℕ) : Option (ℕ × Stage) := (s.runners.get p).bind Runner.place

def statusOf (s : State) (k : ℕ) : Option Status := (s.candidates.get k).map (·.status)

/-- The message is out, and the pass has not recorded it yet. -/
def Stage.carries : Stage → Bool
  | .returned _ _ result => isTransmitted result
  | .claimed | .prepared .. | .sending .. | .recorded .. | .unfinalized _ => false

/-- The step transmits the message of the candidate `k`. -/
def transmits (k : ℕ) (s : State) : Action → Bool
  | .send p outcome =>
    match placeOf s p with
    | some (cid, .sending ..) => cid = k && outcome.transmitted
    | _ => false
  | _ => false

/-- How often a run transmits the message of the candidate `k`. -/
def transmissions (as : List Action) (k : ℕ) : ℕ := countSteps step (transmits k) .initial as

/-! ### Failures -/

/-- The database fails in the final write and in its repair only. -/
def ConfinedFailures : Action → Prop
  | .gate _ _ beltReads => beltReads = true
  | .persistTransmission _ succeeds => succeeds = true
  | _ => True

instance : DecidablePred ConfinedFailures
  | .gate _ _ beltReads => inferInstanceAs (Decidable (beltReads = true))
  | .persistTransmission _ succeeds => inferInstanceAs (Decidable (succeeds = true))
  | .create .. | .dispatch .. | .select _ | .claim .. | .prepare _ | .send .. | .finalizeResult ..
  | .repair .. | .crash _ => .isTrue trivial

/-- A pass gives back no candidate that a living pass works on; a pass does not die between a
transmission and its record; a message that goes out is reported as transmitted. -/
def KeepsTrack (s : State) : Action → Prop
  | .dispatch _ _ _ now => ∀ e ∈ s.candidates.rows, isStuck now e.2 = true →
    ∀ r ∈ s.runners.rows, r.2.place.map Prod.fst ≠ some e.1
  | .crash p => ∀ e ∈ placeOf s p, e.2.carries = false
  | .send _ outcome => outcome.transmitted = true → isTransmitted outcome.result = true
  | _ => True

instance (s : State) : DecidablePred (KeepsTrack s)
  | .dispatch _ _ _ now => inferInstanceAs (Decidable (∀ e ∈ s.candidates.rows,
      isStuck now e.2 = true → ∀ r ∈ s.runners.rows, r.2.place.map Prod.fst ≠ some e.1))
  | .crash p => inferInstanceAs (Decidable (∀ e ∈ placeOf s p, e.2.carries = false))
  | .send _ outcome =>
    inferInstanceAs (Decidable (outcome.transmitted = true → isTransmitted outcome.result = true))
  | .create .. | .select _ | .claim .. | .prepare _ | .gate .. | .persistTransmission ..
  | .finalizeResult .. | .repair .. => .isTrue trivial

/-! ### The invariant -/

structure Inv (as : List Action) (s : State) : Prop where
  processing : ∀ q k stage, placeOf s q = some (k, stage) → statusOf s k = some .processing
  exclusive : ∀ q q' k stage stage', placeOf s q = some (k, stage) →
    placeOf s q' = some (k, stage') → q = q'
  unsent : ∀ q k c n, placeOf s q = some (k, .sending c n) → transmissions as k = 0
  accounted : ∀ k, transmissions as k = 0 ∨ transmissions as k = 1 ∧
    (alreadyTransmitted s.deliveries k = true ∨
      ∃ q stage, placeOf s q = some (k, stage) ∧ stage.carries = true)

lemma inv_initial : Inv [] .initial where
  processing := fun _ _ _ h => nomatch h
  exclusive := fun _ _ _ _ _ h => nomatch h
  unsent := fun _ _ _ _ h => nomatch h
  accounted := fun _ => .inl rfl

/-- What a step of the pass `p` does to the places, the statuses and the records. -/
structure Local (s : State) (a : Action) (s' : State) (p : ℕ) : Prop where
  others : ∀ q, q ≠ p → placeOf s' q = placeOf s q
  statuses : ∀ q k stage, q ≠ p → placeOf s q = some (k, stage) →
    statusOf s' k = some .processing
  own : ∀ k stage, placeOf s' p = some (k, stage) → statusOf s' k = some .processing ∧
    ∀ q stage', q ≠ p → placeOf s q ≠ some (k, stage')
  records : ∀ k, alreadyTransmitted s.deliveries k = true →
    alreadyTransmitted s'.deliveries k = true
  carried : ∀ k stage, placeOf s p = some (k, stage) → stage.carries = true →
    alreadyTransmitted s'.deliveries k = true ∨
      ∃ stage', placeOf s' p = some (k, stage') ∧ stage'.carries = true
  sending : ∀ k c n, placeOf s' p = some (k, .sending c n) →
    alreadyTransmitted s.deliveries k = false ∧
      ∃ stage, placeOf s p = some (k, stage) ∧ stage.carries = false
  transmitted : ∀ k, transmits k s a = true → (∃ c n, placeOf s p = some (k, .sending c n)) ∧
    ∃ stage, placeOf s' p = some (k, stage) ∧ stage.carries = true
  sent : ∀ k, statusOf s k = some .sent → statusOf s' k = some .sent

variable {as : List Action} {s s' : State} {a : Action} {p : ℕ}

lemma transmissions_concat (as : List Action) (a : Action) (k : ℕ) :
    transmissions (as ++ [a]) k =
      transmissions as k + if transmits k (run step .initial as) a then 1 else 0 := by
  rw [transmissions, countSteps_append, countSteps_singleton, transmissions]

lemma Inv.local (h : Inv as (run step .initial as)) (hs : Local (run step .initial as) a s' p) :
    Inv (as ++ [a]) s' := by
  have hcount := transmissions_concat as a
  generalize run step .initial as = s at *
  have hsame : ∀ k, transmits k s a = false → transmissions (as ++ [a]) k = transmissions as k := by
    intro k hk
    rw [hcount, hk]
    rfl
  refine ⟨?_, ?_, ?_, ?_⟩
  · intro q k stage hq
    by_cases hqp : q = p
    · subst hqp
      exact (hs.own k stage hq).1
    · rw [hs.others q hqp] at hq
      exact hs.statuses q k stage hqp hq
  · intro q q' k stage stage' hq hq'
    by_cases hqp : q = p
    · subst hqp
      by_contra hne
      have hne' : q' ≠ q := fun heq => hne heq.symm
      rw [hs.others q' hne'] at hq'
      exact (hs.own k stage hq).2 q' stage' hne' hq'
    · rw [hs.others q hqp] at hq
      by_cases hqp' : q' = p
      · subst hqp'
        exact absurd hq ((hs.own k stage' hq').2 q stage hqp)
      · rw [hs.others q' hqp'] at hq'
        exact h.exclusive q q' k stage stage' hq hq'
  · intro q k c n hq
    cases hk : transmits k s a with
    | true =>
      obtain ⟨⟨c', n', hbefore⟩, stage, hafter, hcarries⟩ := hs.transmitted k hk
      by_cases hqp : q = p
      · subst hqp
        rw [hq] at hafter
        cases hafter
        cases hcarries
      · rw [hs.others q hqp] at hq
        exact absurd (h.exclusive q p k _ _ hq hbefore) hqp
    | false =>
      rw [hsame k hk]
      by_cases hqp : q = p
      · subst hqp
        obtain ⟨hrecorded, stage, hstage, hcarries⟩ := hs.sending k c n hq
        rcases h.accounted k with hzero | ⟨-, hyes | ⟨q', stage', hq', hcarries'⟩⟩
        · exact hzero
        · rw [hrecorded] at hyes
          cases hyes
        · cases h.exclusive q' q k _ _ hq' hstage
          rw [hstage] at hq'
          cases hq'
          rw [hcarries] at hcarries'
          cases hcarries'
      · rw [hs.others q hqp] at hq
        exact h.unsent q k c n hq
  · intro k
    cases hk : transmits k s a with
    | true =>
      obtain ⟨⟨c, n, hbefore⟩, stage, hafter, hcarries⟩ := hs.transmitted k hk
      refine .inr ⟨?_, .inr ⟨p, stage, hafter, hcarries⟩⟩
      rw [hcount, hk, h.unsent p k c n hbefore]
      rfl
    | false =>
      rw [hsame k hk]
      refine (h.accounted k).imp_right fun ⟨hone, hwhere⟩ => ⟨hone, ?_⟩
      rcases hwhere with hrecorded | ⟨q, stage, hq, hcarries⟩
      · exact .inl (hs.records k hrecorded)
      · by_cases hqp : q = p
        · subst hqp
          rcases hs.carried k stage hq hcarries with hrecorded | ⟨stage', hstage', hcarries'⟩
          · exact .inl hrecorded
          · exact .inr ⟨q, stage', hstage', hcarries'⟩
        · exact .inr ⟨q, stage, by rw [hs.others q hqp]; exact hq, hcarries⟩

/-! ### The steps of one pass -/

lemma placeOf_of_get {R : Runner} (hp : s.runners.get p = some R) : placeOf s p = R.place := by
  rw [placeOf, hp, Option.bind_some]

lemma placeOf_fresh (s : State) : placeOf s s.runners.fresh = none := by
  rw [placeOf, Table.get_eq_none_iff.mpr (Table.fresh_not_mem _), Option.bind_none]

lemma placeOf_moved {R R' : Runner} (hp : s.runners.get p = some R)
    (hrunners : s'.runners = s.runners.modify p fun _ => R') : placeOf s' p = R'.place := by
  rw [placeOf, hrunners, Table.get_modify_self, hp]
  rfl

lemma placeOf_other {R' : Runner} (hrunners : s'.runners = s.runners.modify p fun _ => R') {q : ℕ}
    (hq : q ≠ p) : placeOf s' q = placeOf s q := by
  rw [placeOf, hrunners, Table.get_modify_of_ne _ _ hq, placeOf]

lemma Inv.stage (h : Inv as s) {k : ℕ} {stage stage' : Stage} {R R' : Runner}
    (hp : s.runners.get p = some R) (hR : R.place = some (k, stage))
    (hrunners : s'.runners = s.runners.modify p fun _ => R') (hR' : R'.place = some (k, stage'))
    (hcandidates : s'.candidates = s.candidates)
    (hrecords : ∀ j, alreadyTransmitted s.deliveries j = true →
      alreadyTransmitted s'.deliveries j = true)
    (hcarried : stage.carries = true →
      alreadyTransmitted s'.deliveries k = true ∨ stage'.carries = true)
    (hsending : ∀ c n, stage' = .sending c n →
      alreadyTransmitted s.deliveries k = false ∧ stage.carries = false)
    (htransmitted : ∀ j, transmits j s a = true →
      j = k ∧ (∃ c n, stage = .sending c n) ∧ stage'.carries = true) : Local s a s' p := by
  have hbefore : placeOf s p = some (k, stage) := (placeOf_of_get hp).trans hR
  have hafter : placeOf s' p = some (k, stage') := (placeOf_moved hp hrunners).trans hR'
  have hstatus : ∀ j, statusOf s' j = statusOf s j := by
    intro j
    rw [statusOf, hcandidates, statusOf]
  refine ⟨fun q => placeOf_other hrunners, ?_, ?_, hrecords, ?_, ?_, ?_, ?_⟩
  · intro q j stage₁ _ hq
    rw [hstatus]
    exact h.processing q j stage₁ hq
  · intro j stage₁ hj
    rw [hafter] at hj
    cases hj
    refine ⟨(hstatus k).trans (h.processing p k stage hbefore), fun q stage₁ hqp hq => ?_⟩
    exact hqp (h.exclusive q p k _ _ hq hbefore)
  · intro j stage₁ hj hcarries
    rw [hbefore] at hj
    cases hj
    exact (hcarried hcarries).imp_right fun hn => ⟨stage', hafter, hn⟩
  · intro j c n hj
    rw [hafter] at hj
    cases hj
    obtain ⟨hrecorded, hcarries⟩ := hsending c n rfl
    exact ⟨hrecorded, stage, hbefore, hcarries⟩
  · intro j hj
    obtain ⟨rfl, ⟨c, n, rfl⟩, hcarries⟩ := htransmitted j hj
    exact ⟨⟨c, n, hbefore⟩, stage', hafter, hcarries⟩
  · intro j hj
    rw [hstatus]
    exact hj

/-- A pass is not at work after the step.  The statuses that the step changes are those of the
candidate of the pass and of candidates that nobody works on and that are not sent. -/
lemma Inv.leave (h : Inv as s) (hothers : ∀ q, q ≠ p → placeOf s' q = placeOf s q)
    (hafter : placeOf s' p = none)
    (hstatus : ∀ j, (∃ stage, placeOf s p = some (j, stage)) ∨ statusOf s' j = statusOf s j ∨
      statusOf s j ≠ some .processing ∧ statusOf s j ≠ some .sent)
    (hrecords : ∀ j, alreadyTransmitted s.deliveries j = true →
      alreadyTransmitted s'.deliveries j = true)
    (hcarried : ∀ e ∈ placeOf s p, e.2.carries = false)
    (htransmitted : ∀ j, transmits j s a = false) : Local s a s' p := by
  refine ⟨hothers, ?_, ?_, hrecords, ?_, ?_, ?_, ?_⟩
  · intro q j stage hqp hq
    have hprocessing := h.processing q j stage hq
    rcases hstatus j with ⟨stage', hj⟩ | hsame | ⟨hnot, -⟩
    · exact absurd (h.exclusive q p j _ _ hq hj) hqp
    · exact hsame.trans hprocessing
    · exact absurd hprocessing hnot
  · intro j stage hj
    rw [hafter] at hj
    cases hj
  · intro j stage hj hcarries
    rw [hcarried (j, stage) hj] at hcarries
    cases hcarries
  · intro j c n hj
    rw [hafter] at hj
    cases hj
  · intro j hj
    rw [htransmitted j] at hj
    cases hj
  · intro j hj
    rcases hstatus j with ⟨stage, hown⟩ | hsame | ⟨-, hnot⟩
    · rw [h.processing p j stage hown] at hj
      cases hj
    · exact hsame.trans hj
    · exact absurd hj hnot

/-- Nothing happens. -/
lemma Inv.idle (h : Inv as s) (htransmitted : ∀ j, transmits j s a = false) :
    Local s a s s.runners.fresh := by
  refine h.leave (fun _ _ => rfl) (placeOf_fresh s) (fun _ => .inr (.inl rfl)) (fun _ hj => hj) ?_
    htransmitted
  rw [placeOf_fresh]
  exact fun _ hn => nomatch hn

lemma alreadyTransmitted_append {deliveries : List NotificationDelivery} {k : ℕ}
    (h : alreadyTransmitted deliveries k = true) (rows : List NotificationDelivery) :
    alreadyTransmitted (deliveries ++ rows) k = true := by
  rw [alreadyTransmitted, List.any_append]
  exact Bool.or_eq_true_iff.mpr (.inl h)

lemma statusOf_modify {k : ℕ} {f : NotificationCandidate → NotificationCandidate}
    (hcandidates : s'.candidates = s.candidates.modify k f) {j : ℕ} (hj : j ≠ k) :
    statusOf s' j = statusOf s j := by
  rw [statusOf, hcandidates, Table.get_modify_of_ne _ _ hj, statusOf]

/-- A pass that is at work on the candidate `k` is through with it. -/
lemma Inv.finish (h : Inv as s) {k : ℕ} {stage : Stage} {R R' : Runner}
    (hp : s.runners.get p = some R) (hR : R.place = some (k, stage))
    (hcarries : stage.carries = false)
    (hrunners : s'.runners = s.runners.modify p fun _ => R') (hR' : R'.place = none)
    (hstatus : ∀ j, j ≠ k → statusOf s' j = statusOf s j)
    (hrecords : ∀ j, alreadyTransmitted s.deliveries j = true →
      alreadyTransmitted s'.deliveries j = true)
    (htransmitted : ∀ j, transmits j s a = false) : Local s a s' p := by
  have hbefore : placeOf s p = some (k, stage) := (placeOf_of_get hp).trans hR
  refine h.leave (fun q => placeOf_other hrunners) ((placeOf_moved hp hrunners).trans hR') ?_
    hrecords ?_ htransmitted
  · intro j
    by_cases hj : j = k
    · subst hj
      exact .inl ⟨stage, hbefore⟩
    · exact .inr (.inl (hstatus j hj))
  · rw [hbefore]
    rintro e he
    cases he
    exact hcarries

/-- A pass that is not at work moves, and the candidates stay. -/
lemma Inv.wait (h : Inv as s) {R R' : Runner} (hp : s.runners.get p = some R) (hR : R.place = none)
    (hR' : R'.place = none) (htransmitted : ∀ j, transmits j s a = false) :
    Local s a (s.withRunner p R') p := by
  refine h.leave (fun q => placeOf_other rfl) ((placeOf_moved hp rfl).trans hR')
    (fun _ => .inr (.inl rfl)) (fun _ hj => hj) ?_ htransmitted
  rw [placeOf_of_get hp, hR]
  exact fun _ hn => nomatch hn

/-! ### The steps of the system -/

lemma get_of_status {k : ℕ} {status : Status} (h : statusOf s k = some status) :
    ∃ c, s.candidates.get k = some c ∧ c.status = status := Option.map_eq_some_iff.mp h

lemma local_create (h : Inv as s) (outcome : String) (executionJobId : Option ℕ)
    (correlationId : String) (now : Time) :
    ∃ p, Local s (.create outcome executionJobId correlationId now)
      (step s (.create outcome executionJobId correlationId now)) p := by
  refine ⟨s.runners.fresh, h.leave (fun _ _ => rfl) (placeOf_fresh s) (fun j => ?_)
    (fun _ hj => hj) ?_ fun _ => rfl⟩
  · cases hj : s.candidates.get j with
    | none =>
      refine .inr (.inr ?_)
      rw [statusOf, hj]
      exact ⟨fun hn => (nomatch hn), fun hn => nomatch hn⟩
    | some c =>
      refine .inr (.inl ?_)
      dsimp only [step, statusOf]
      rw [Table.get_insert_of_get (Table.fresh_not_mem _) hj, hj]
  · rw [placeOf_fresh]
    exact fun _ hn => nomatch hn

lemma placeOf_insert (s : State) {R : Runner} (hR : R.place = none) (q : ℕ) :
    ((s.runners.insert s.runners.fresh R).get q).bind Runner.place = placeOf s q := by
  rw [Table.get_insert _ (Table.fresh_not_mem _), placeOf]
  split_ifs with hq
  · rw [hq, Table.get_eq_none_iff.mpr (Table.fresh_not_mem _)]
    exact hR
  · rfl

/-- A pass begins, and no candidate that it gives back is at work. -/
lemma local_dispatch (h : Inv as s) {settings : Settings} {transport : Option Transport}
    {limit : ℕ} {now : Time} (hkeeps : KeepsTrack s (.dispatch settings transport limit now)) :
    ∃ p, Local s (.dispatch settings transport limit now)
      (step s (.dispatch settings transport limit now)) p := by
  refine ⟨s.runners.fresh, ?_⟩
  rw [step]
  by_cases henabled : dispatchEnabled settings = true
  · rw [if_pos henabled]
    dsimp only
    have hplaces : ∀ q, placeOf { s with
        candidates := reapStuckProcessing s.candidates now
        runners := s.runners.insert s.runners.fresh
          (.reaped (transport.getD (selectTransport settings))
            ⟨true, 0, 0, 0, 0, (s.candidates.filter fun _ c => isStuck now c).length⟩ limit) } q =
        placeOf s q := fun q => placeOf_insert s rfl q
    have hnone := (hplaces s.runners.fresh).trans (placeOf_fresh s)
    have hbefore := placeOf_fresh s
    refine ⟨fun q _ => hplaces q, ?_, ?_, fun _ hj => hj, ?_, ?_, (fun _ hj => nomatch hj), ?_⟩
    · intro q j stage _ hq
      obtain ⟨c, hc, hstatus⟩ := get_of_status (h.processing q j stage hq)
      obtain ⟨R, hR, hplace⟩ := Option.bind_eq_some_iff.mp hq
      have hfresh : isStuck now c = false := by
        refine Bool.eq_false_iff.mpr fun hstuck => ?_
        refine hkeeps (j, c) (Table.mem_rows_of_get hc) hstuck (q, R) (Table.mem_rows_of_get hR) ?_
        rw [hplace]
        rfl
      dsimp only [statusOf, reapStuckProcessing]
      rw [Table.get_map, hc, Option.map_some, Option.map_some, if_neg (by rw [hfresh]; simp),
        hstatus]
    · intro j stage hj
      rw [hnone] at hj
      cases hj
    · intro j stage hj
      rw [hbefore] at hj
      cases hj
    · intro j c n hj
      rw [hnone] at hj
      cases hj
    · intro j hj
      obtain ⟨c, hc, hstatus⟩ := get_of_status hj
      have hfresh : isStuck now c = false := by
        rw [isStuck, hstatus]
        rfl
      dsimp only [statusOf, reapStuckProcessing]
      rw [Table.get_map, hc, Option.map_some, Option.map_some, if_neg (by rw [hfresh]; simp),
        hstatus]
  · rw [if_neg henabled]
    refine h.leave (fun q _ => placeOf_insert s rfl q)
      ((placeOf_insert s rfl _).trans (placeOf_fresh s)) (fun _ => .inr (.inl rfl))
      (fun _ hj => hj) ?_ fun _ => rfl
    rw [placeOf_fresh]
    exact fun _ hn => nomatch hn

lemma local_select (h : Inv as s) (p : ℕ) : ∃ q, Local s (.select p) (step s (.select p)) q := by
  rw [step]
  split
  · rename_i transport counts limit hp
    exact ⟨p, h.wait hp rfl rfl fun _ => rfl⟩
  · exact ⟨_, h.idle fun _ => rfl⟩

lemma local_claim (h : Inv as s) (p : ℕ) (now : Time) :
    ∃ q, Local s (.claim p now) (step s (.claim p now)) q := by
  rw [step]
  split
  · rename_i transport counts ids hp
    cases ids with
    | nil => exact ⟨p, h.wait hp rfl rfl fun _ => rfl⟩
    | cons cid ids =>
      rw [claimNext]
      split_ifs with hfree
      · obtain ⟨c, hc, hretryable⟩ := (Option.any_eq_true _ _).mp hfree
        have hbefore : placeOf s p = none := placeOf_of_get hp
        have hafter : ∀ s' : State, s'.runners = s.runners.modify p (fun _ =>
            .working transport counts ids cid .claimed) → placeOf s' p = some (cid, .claimed) :=
          fun s' hs' => placeOf_moved hp hs'
        have hother : ∀ j, statusOf s j = some .processing ∨ statusOf s j = some .sent →
            j ≠ cid := by
          rintro j hj rfl
          rcases hj with hj | hj
          all_goals
            obtain ⟨c', hc', hstatus⟩ := get_of_status hj
            cases Option.some.inj (hc.symm.trans hc')
            rw [hstatus] at hretryable
            cases hretryable
        refine ⟨p, fun q => placeOf_other rfl, ?_, ?_, fun _ hj => hj, ?_, ?_,
          (fun _ hj => nomatch hj), ?_⟩
        · intro q j stage _ hq
          have hprocessing := h.processing q j stage hq
          rw [statusOf_modify rfl (hother j (.inl hprocessing))]
          exact hprocessing
        · intro j stage hj
          rw [hafter _ rfl] at hj
          cases hj
          constructor
          · dsimp only [statusOf]
            rw [Table.get_modify_self, hc]
            rfl
          · intro q stage' _ hq
            exact hother cid (.inl (h.processing q cid stage' hq)) rfl
        · intro j stage hj
          rw [hbefore] at hj
          cases hj
        · intro j c n hj
          rw [hafter _ rfl] at hj
          cases hj
        · intro j hj
          rw [statusOf_modify rfl (hother j (.inr hj))]
          exact hj
      · exact ⟨p, h.wait hp rfl rfl fun _ => rfl⟩
  · exact ⟨_, h.idle fun _ => rfl⟩

lemma local_prepare (h : Inv as s) (p : ℕ) :
    ∃ q, Local s (.prepare p) (step s (.prepare p)) q := by
  rw [step]
  split
  · rename_i transport counts ids cid hp
    cases hc : s.candidates.get cid with
    | none =>
      exact ⟨p, h.finish hp rfl rfl rfl rfl (fun _ _ => rfl) (fun _ hj => hj) fun _ => rfl⟩
    | some candidate =>
      exact ⟨p, h.stage hp rfl rfl rfl rfl (fun _ hj => hj) (fun hn => nomatch hn)
        (fun _ _ hn => nomatch hn) fun _ hn => nomatch hn⟩
  · exact ⟨_, h.idle fun _ => rfl⟩

lemma belt_of_beforeSend {transport : Transport} {candidate : NotificationCandidate}
    {belt : Option Bool} (h : beforeSend transport candidate belt = none) : belt ≠ some true := by
  cases transport with
  | dryRun => cases h
  | real token chatId =>
    rw [beforeSend] at h
    split_ifs at h with _ _ _ hbelt
    exact hbelt

lemma local_gate (h : Inv as s) {p : ℕ} {renders beltReads : Bool}
    (hconfined : ConfinedFailures (.gate p renders beltReads)) :
    ∃ q, Local s (.gate p renders beltReads) (step s (.gate p renders beltReads)) q := by
  rw [step]
  split
  · rename_i transport counts ids cid candidate attempt hp
    refine ⟨p, ?_⟩
    cases (hconfined : beltReads = true)
    by_cases hrenders : renders = true
    · rw [if_pos hrenders]
      dsimp only
      rw [if_pos rfl]
      cases hbefore : beforeSend transport candidate (some (alreadyTransmitted s.deliveries cid)) with
      | some result =>
        exact h.stage hp rfl rfl rfl rfl (fun _ hj => hj) (fun hn => nomatch hn)
          (fun _ _ hn => nomatch hn) fun _ hn => nomatch hn
      | none =>
        refine h.stage hp rfl rfl rfl rfl (fun _ hj => hj) (fun hn => nomatch hn) ?_
          fun _ hn => nomatch hn
        intro c n _
        refine ⟨Bool.eq_false_iff.mpr fun hyes => belt_of_beforeSend hbefore ?_, rfl⟩
        rw [hyes]
    · rw [if_neg hrenders]
      exact h.stage hp rfl rfl rfl rfl (fun _ hj => hj) (fun hn => nomatch hn)
        (fun _ _ hn => nomatch hn) fun _ hn => nomatch hn
  · exact ⟨_, h.idle fun _ => rfl⟩

lemma local_send (h : Inv as s) {p : ℕ} {outcome : SendOutcome}
    (hkeeps : KeepsTrack s (.send p outcome)) :
    ∃ q, Local s (.send p outcome) (step s (.send p outcome)) q := by
  rw [step]
  split
  · rename_i transport counts ids cid candidate attempt hp
    refine ⟨p, h.stage hp rfl rfl rfl rfl (fun _ hj => hj) (fun hn => nomatch hn)
      (fun _ _ hn => nomatch hn) fun j hj => ?_⟩
    rw [transmits, placeOf_of_get hp] at hj
    obtain ⟨hcid, hout⟩ := Bool.and_eq_true_iff.mp hj
    exact ⟨(of_decide_eq_true hcid).symm, ⟨candidate, attempt, rfl⟩, hkeeps hout⟩
  · rename_i hother
    refine ⟨_, h.idle fun j => ?_⟩
    rw [transmits]
    split
    · rename_i cid candidate attempt hplace
      obtain ⟨R, hR, hat⟩ := Option.bind_eq_some_iff.mp hplace
      cases R with
      | working transport counts ids cid' stage =>
        cases hat
        exact absurd hR (hother transport counts ids cid candidate attempt)
      | reaped | looping | ended | crashed => cases hat
    · rfl

lemma local_persistTransmission (h : Inv as s) {p : ℕ} {succeeds : Bool}
    (hconfined : ConfinedFailures (.persistTransmission p succeeds)) :
    ∃ q, Local s (.persistTransmission p succeeds) (step s (.persistTransmission p succeeds)) q := by
  rw [step]
  split
  · rename_i transport counts ids cid candidate attempt result hp
    cases (hconfined : succeeds = true)
    refine ⟨p, ?_⟩
    cases result with
    | none =>
      exact h.stage hp rfl rfl rfl rfl (fun _ hj => hj) (fun hn => nomatch hn)
        (fun _ _ hn => nomatch hn) fun _ hn => nomatch hn
    | some result =>
      dsimp only
      split_ifs with hwrites
      · refine h.stage hp rfl rfl rfl rfl (fun _ hj => alreadyTransmitted_append hj _) ?_
          (fun _ _ hn => nomatch hn) fun _ hn => nomatch hn
        intro _
        left
        simp [alreadyTransmitted, transmissionRow]
      · refine h.stage hp rfl rfl rfl rfl (fun _ hj => hj) ?_ (fun _ _ hn => nomatch hn)
          fun _ hn => nomatch hn
        intro hcarries
        exact absurd ⟨hcarries, rfl⟩ hwrites
  · exact ⟨_, h.idle fun _ => rfl⟩

lemma local_finalizeResult (h : Inv as s) (p : ℕ) (succeeds : Bool) (now : Time) :
    ∃ q, Local s (.finalizeResult p succeeds now) (step s (.finalizeResult p succeeds now)) q := by
  rw [step]
  split
  · rename_i transport counts ids cid candidate attempt result written hp
    refine ⟨p, ?_⟩
    split_ifs with hsucceeds
    · refine h.finish hp rfl rfl rfl rfl (fun j hj => statusOf_modify rfl hj) ?_ fun _ => rfl
      intro j hj
      dsimp only [finalizeResult, State.withRunner]
      split_ifs
      · exact hj
      · exact alreadyTransmitted_append hj _
    · exact h.stage hp rfl rfl rfl rfl (fun _ hj => hj) (fun hn => nomatch hn)
        (fun _ _ hn => nomatch hn) fun _ hn => nomatch hn
  · exact ⟨_, h.idle fun _ => rfl⟩

lemma local_repair (h : Inv as s) (p : ℕ) (succeeds : Bool) (now : Time) :
    ∃ q, Local s (.repair p succeeds now) (step s (.repair p succeeds now)) q := by
  rw [step]
  split
  · rename_i transport counts ids cid transmitted hp
    refine ⟨p, ?_⟩
    dsimp only
    by_cases hwrites : succeeds ∧ (s.candidates.get cid).any (·.status = .processing)
    · rw [if_pos hwrites]
      exact h.finish hp rfl rfl rfl rfl (fun j hj => statusOf_modify rfl hj) (fun _ hj => hj)
        fun _ => rfl
    · rw [if_neg hwrites]
      exact h.finish hp rfl rfl rfl rfl (fun _ _ => rfl) (fun _ hj => hj) fun _ => rfl
  · exact ⟨_, h.idle fun _ => rfl⟩

/-- A pass dies, and its message, if it is out, is recorded. -/
lemma local_crash (h : Inv as s) {p : ℕ} (hkeeps : KeepsTrack s (.crash p)) :
    ∃ q, Local s (.crash p) (step s (.crash p)) q := by
  refine ⟨p, h.leave (fun q => placeOf_other rfl) ?_ (fun _ => .inr (.inl rfl)) (fun _ hj => hj)
    hkeeps fun _ => rfl⟩
  rw [placeOf, step, State.withRunner, Table.get_modify_self]
  cases s.runners.get p <;> rfl

lemma local_step (h : Inv as s) (hconfined : ConfinedFailures a) (hkeeps : KeepsTrack s a) :
    ∃ p, Local s a (step s a) p := by
  cases a with
  | create outcome executionJobId correlationId now => exact local_create h _ _ _ _
  | dispatch settings transport limit now => exact local_dispatch h hkeeps
  | select p => exact local_select h p
  | claim p now => exact local_claim h p now
  | prepare p => exact local_prepare h p
  | gate p renders beltReads => exact local_gate h hconfined
  | send p outcome => exact local_send h hkeeps
  | persistTransmission p succeeds => exact local_persistTransmission h hconfined
  | finalizeResult p succeeds now => exact local_finalizeResult h p succeeds now
  | repair p succeeds now => exact local_repair h p succeeds now
  | crash p => exact local_crash h hkeeps

/-! ### The claim about transmissions -/

/-- In a run every candidate is transmitted at most once, and a sent candidate stays sent. -/
structure DeliveredOnce (as : List Action) : Prop where
  once : ∀ k, transmissions as k ≤ 1
  staysSent : ∀ pre post k, as = pre ++ post → statusOf (run step .initial pre) k = some .sent →
    statusOf (run step .initial as) k = some .sent

lemma inv_of_meets (h : StepsMeet step (fun s a => ConfinedFailures a ∧ KeepsTrack s a) .initial
    as) : Inv as (run step .initial as) := by
  refine run_history_of_meets (Q := Inv) inv_initial ?_ h
  rintro as a hinv ⟨hconfined, hkeeps⟩
  obtain ⟨p, hlocal⟩ := local_step hinv hconfined hkeeps
  exact hinv.local hlocal

lemma staysSent_of_meets {pre : List Action} {k : ℕ}
    (hsent : statusOf (run step .initial pre) k = some .sent) : ∀ post : List Action,
    StepsMeet step (fun s a => ConfinedFailures a ∧ KeepsTrack s a) .initial (pre ++ post) →
    statusOf (run step .initial (pre ++ post)) k = some .sent := by
  intro post
  induction post using List.reverseRecOn with
  | nil =>
    intro _
    rwa [List.append_nil]
  | append_singleton post a ih =>
    intro h
    rw [← List.append_assoc] at h ⊢
    obtain ⟨hbefore, ⟨hconfined, hkeeps⟩, -⟩ := stepsMeet_append.mp h
    obtain ⟨p, hlocal⟩ := local_step (inv_of_meets hbefore) hconfined hkeeps
    rw [run_concat]
    exact hlocal.sent k (ih hbefore)

/-- The candidates are delivered once in every run that keeps track of the passes. -/
theorem deliveredOnce_of_keepsTrack (as : List Action)
    (hconfined : ∀ a ∈ as, ConfinedFailures a) (hkeeps : StepsMeet step KeepsTrack .initial as) :
    DeliveredOnce as := by
  have hboth : StepsMeet step (fun s a => ConfinedFailures a ∧ KeepsTrack s a) .initial as := by
    refine stepsMeet_iff.mpr fun pre a post has => ⟨hconfined a ?_, ?_⟩
    · rw [has]
      exact List.mem_append_right _ List.mem_cons_self
    · exact stepsMeet_iff.mp hkeeps pre a post has
  constructor
  · intro k
    rcases (inv_of_meets hboth).accounted k with hzero | ⟨hone, -⟩
    · exact hzero.le.trans (Nat.zero_le 1)
    · exact hone.le
  · rintro pre post k rfl hsent
    exact staysSent_of_meets hsent post hboth

/-! ### A slow send -/

def realSettings : Settings := ⟨"true", "real", "token", "-100200"⟩

/-- A pass claims the oldest candidate and comes to its send. -/
def takeUp (p : ℕ) (now : Time) : List Action :=
  [.dispatch realSettings none 500 now, .select p, .claim p now, .prepare p, .gate p true true]

/-- The send is slower than the timeout; the second pass gives the candidate back, takes it up itself
and delivers it; then the first send goes through and its answer is lost. -/
def slowRun : List Action :=
  ([.create "WIN" (some 9) "corr" 0] : List Action) ++ takeUp 1 10 ++ takeUp 2 400 ++
    ([.send 2 (.accepted true "77"), .persistTransmission 2 true, .finalizeResult 2 true 401,
      .send 1 (.failed true "telegram network error: timeout"), .persistTransmission 1 true,
      .finalizeResult 1 true 402] : List Action)

/-- The message is transmitted twice, and the sent candidate is set to failed. -/
theorem deliveredOnce_broken : (∀ a ∈ slowRun, ConfinedFailures a) ∧ ¬ DeliveredOnce slowRun ∧
    transmissions slowRun 1 = 2 ∧ statusOf (run step .initial (slowRun.take 14)) 1 = some .sent ∧
    statusOf (run step .initial slowRun) 1 = some .failed := by
  have htwice : transmissions slowRun 1 = 2 := by decide +kernel
  refine ⟨by decide +kernel, fun h => ?_, htwice, by decide +kernel, by decide +kernel⟩
  have honce := h.once 1
  rw [htwice] at honce
  exact absurd honce (by decide)

/-- A pass dies before it sends, and its candidate is given back and delivered; the final write of the
delivery fails, and so does its repair, and the next pass skips the candidate at the belt. -/
def recoveredRun : List Action :=
  ([.create "WIN" (some 9) "corr" 0] : List Action) ++ takeUp 1 10 ++ ([.crash 1] : List Action) ++
    takeUp 2 400 ++
    ([.send 2 (.accepted true "77"), .persistTransmission 2 true, .finalizeResult 2 false 401,
      .repair 2 false 401] : List Action) ++ takeUp 3 800 ++
    ([.persistTransmission 3 true, .finalizeResult 3 true 801] : List Action)

theorem deliveredOnce_recoveredRun : DeliveredOnce recoveredRun ∧
    transmissions recoveredRun 1 = 1 ∧
    statusOf (run step .initial recoveredRun) 1 = some .sent :=
  ⟨deliveredOnce_of_keepsTrack recoveredRun (by decide +kernel) (by decide +kernel),
    by decide +kernel, by decide +kernel⟩

end Notifications
end GuvFX
