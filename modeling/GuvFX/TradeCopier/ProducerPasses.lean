/-
# Passes of the producers

A pass of a producer takes the waiting intents of enabled followers in the order of their keys, up to a limit,
and tries one after the other.  A refused intent keeps waiting, and the next pass takes it again.  An intent
is thus reached once fewer intents than the limit wait before it; a batch that consists of refused intents
stands in the way of all the others, and an intent of a disabled follower is in no batch at all.

The passes are taken one after the other, by one worker.
-/
import GuvFX.TradeCopier.ProducerSystem
import GuvFX.TradeCopier.Replication
import Mathlib.Data.List.Sort
import Mathlib.Data.List.TakeWhile

namespace GuvFX
namespace ExecutionProducer

open Checks Flags Runs
open Consumer (JobType JobStatus RequestedOp ReplicationStatus)
open LiveExecution (CopierFollower CopierLiveAuthorization Row)

/-! ### One intent -/

def Db.commit (db : Db) (t : Txn) : Db :=
  match t.decision.job with
  | none => db.mark t
  | some job => db.assign db.jobs.fresh t job

/-- The decision of a live opening, under the lock of the authorization. -/
def produceLive (env : Env) (db : Db) (r : ℕ) (rep : CopierReplication) (follower : CopierFollower)
    (event : MasterEvent) (admittedId : ℕ) : Except String Decision :=
  match LiveExecution.activeAuthorizationFor db.live follower.masterAccountId
      follower.followerAccountId with
  | none => .error "no_live_authorization"
  | some (id, _) =>
    match db.authorizations.get id with
    | none => .error "no_live_authorization"
    | some authz =>
      if authz.status = .active then decideOpenLive env db r rep follower event admittedId id authz
      else .error "no_live_authorization"

/-- Produce at most one job for an intent: the rows after the commit, or why there is none. -/
def produceOne (env : Env) (db : Db) (producer : Producer) (r : ℕ) : Except String Db :=
  if !copierExecuteEnabled env.flags then .error "producer_disabled"
  else
    match db.replications.get r with
    | none => .error "gate:DoesNotExist"
    | some rep =>
      match db.followers.get rep.followerId, db.events.get rep.masterEventId with
      | some follower, some event =>
        let txn (live : Bool) (decision : Decision) : Txn :=
          { producer, replicationId := r, followerId := rep.followerId, replication := rep
            gate := env.flags, arm := env.flags, live, decision }
        match admitReplication env db producer rep with
        | .error reason => .error reason
        | .ok (.demo found) =>
          (decision env (copierExecuteDemoArmed env.flags) r rep follower event found).map fun d =>
            db.commit (txn false d)
        | .ok (.live a) => (produceLive env db r rep follower event a).map fun d =>
            db.commit (txn true d)
      | _, _ => .error "gate:DoesNotExist"

/-! ### A pass -/

def waiting (db : Db) (producer : Producer) : List ℕ :=
  ((db.replications.filter fun _ rep =>
    rep.status = .shadowRecorded && rep.executionJobId = none &&
      rep.requestedOp = producer.requestedOp &&
      (db.followers.get rep.followerId).any (·.enabled)).map Prod.fst).insertionSort (· ≤ ·)

/-- What a pass reads: the gate at its start, the facts at the moment at which it takes an intent up, and
whether an error is raised while it produces it. -/
structure Reading where
  gate : Flags
  env : ℕ → Env
  raises : ℕ → Bool

/-- An intent is tried; a refusal leaves everything as it is, and so does an error. -/
def consider (reading : Reading) (producer : Producer) (r : ℕ) (db : Db) : Db :=
  match produceOne (reading.env r) db producer r with
  | .ok db' => if reading.raises r then db else db'
  | .error _ => db

/-- Intents are tried one after the other. -/
def drain (producer : Producer) (reading : Reading) (ids : List ℕ) (db : Db) : Db :=
  ids.foldl (fun db r => consider reading producer r db) db

/-- The intents that a pass takes up. -/
def batch (limit : ℕ) (db : Db) (producer : Producer) : List ℕ := (waiting db producer).take limit

def producePending (producer : Producer) (limit : ℕ) (reading : Reading) (db : Db) : Db :=
  if copierExecuteEnabled reading.gate then drain producer reading (batch limit db producer) db
  else db

/-- The rows that a pass finds when it takes up the intent `r`. -/
def turn (producer : Producer) (limit : ℕ) (reading : Reading) (db : Db) (r : ℕ) : Db :=
  drain producer reading ((batch limit db producer).takeWhile (· ≠ r)) db

/-! ### What becomes of the intents -/

/-- The intent waits for its producer, whether its follower is enabled or not. -/
def Pending (db : Db) (producer : Producer) (r : ℕ) : Prop :=
  ∃ rep, db.replications.get r = some rep ∧ rep.status = .shadowRecorded ∧
    rep.executionJobId = none ∧ rep.requestedOp = producer.requestedOp

def FollowerEnabled (db : Db) (r : ℕ) : Prop :=
  ∃ rep follower, db.replications.get r = some rep ∧
    db.followers.get rep.followerId = some follower ∧ follower.enabled = true

/-- The intent is admitted at this moment, and produced without an error. -/
def Accepted (producer : Producer) (reading : Reading) (db : Db) (r : ℕ) : Prop :=
  reading.raises r = false ∧ (produceOne (reading.env r) db producer r).toOption.isSome = true

instance (producer : Producer) (reading : Reading) (db : Db) (r : ℕ) :
    Decidable (Accepted producer reading db r) :=
  inferInstanceAs (Decidable (_ ∧ _))

section

variable {env : Env} {db db' : Db} {producer : Producer} {r k limit : ℕ} {reading : Reading}

lemma mem_waiting : r ∈ waiting db producer ↔ Pending db producer r ∧ FollowerEnabled db r := by
  simp only [waiting, List.mem_insertionSort, List.mem_map, Prod.exists, exists_and_right,
    exists_eq_right, Table.mem_filter, Bool.and_eq_true, decide_eq_true_eq, Option.any_eq_true]
  constructor
  · rintro ⟨rep, hrep, ⟨⟨hstatus, hjob⟩, hop⟩, follower, hfollower, henabled⟩
    exact ⟨⟨rep, hrep, hstatus, hjob, hop⟩, rep, follower, hrep, hfollower, henabled⟩
  · rintro ⟨⟨rep, hrep, hstatus, hjob, hop⟩, rep', follower, hrep', hfollower, henabled⟩
    obtain rfl : rep' = rep := Option.some.inj (hrep'.symm.trans hrep)
    exact ⟨rep', hrep, ⟨⟨hstatus, hjob⟩, hop⟩, follower, hfollower, henabled⟩

lemma sorted_waiting : (waiting db producer).Pairwise (· ≤ ·) := List.pairwise_insertionSort _ _

lemma lt_of_mem_batch (hk : k ∈ batch limit db producer) (hr : r ∈ waiting db producer)
    (hout : r ∉ batch limit db producer) : k < r := by
  have hsplit := List.take_append_drop limit (waiting db producer)
  have hdrop : r ∈ (waiting db producer).drop limit := by
    rw [← hsplit, List.mem_append] at hr
    exact hr.resolve_left hout
  have hsorted : (waiting db producer).Pairwise (· ≤ ·) := sorted_waiting
  rw [← hsplit, List.pairwise_append] at hsorted
  have hle := hsorted.2.2 k hk r hdrop
  have hne : k ≠ r := by
    rintro rfl
    exact hout hk
  omega

/-- A mark without a job is the mark of a suppressed one. -/
lemma status_of_decision {armed : Bool} {rep : CopierReplication} {follower : CopierFollower}
    {event : MasterEvent} {found : DemoAdmission} {d : Decision}
    (h : decision env armed r rep follower event found = .ok d) (hjob : d.job = none) :
    d.row.status = .shadowJobRecorded := by
  cases found with
  | open_ =>
    have hfits := (of_decision h).jobType
    rw [hjob] at hfits
    cases armed <;> cases hfits
  | close ticket o openRepl =>
    obtain rfl := Except.ok.inj h
    cases armed with
    | true => cases hjob
    | false => rfl
  | modify ticket =>
    obtain rfl := Except.ok.inj h
    cases armed with
    | true => cases hjob
    | false => rfl
  | partialClose ticket reduction remaining =>
    obtain rfl := Except.ok.inj h
    cases armed with
    | true => cases hjob
    | false => rfl

/-- What a production does to the rows: the intent no longer waits, and the others stand. -/
structure Settles (db db' : Db) (r : ℕ) : Prop where
  settled : ∀ producer, ¬ Pending db' producer r
  others : ∀ k, k ≠ r → db'.replications.get k = db.replications.get k
  followers : db'.followers = db.followers

lemma settles_commit {t : Txn} (hr : t.replicationId = r)
    (hjob : t.decision.job = none → t.decision.row.status = .shadowJobRecorded) :
    Settles db (db.commit t) r := by
  subst hr
  unfold Db.commit
  split
  · rename_i hnone
    refine ⟨?_, fun k hk => Table.get_modify_of_ne _ _ hk, rfl⟩
    rintro producer ⟨rep, hrep, hstatus, -⟩
    have hget : (db.replications.get t.replicationId).map (fun _ => t.decision.row) = some rep := by
      rw [← Table.get_modify_self]
      exact hrep
    obtain ⟨-, -, rfl⟩ := Option.map_eq_some_iff.mp hget
    rw [hjob hnone] at hstatus
    cases hstatus
  · rename_i job hsome
    refine ⟨?_, fun k hk => ?_, ?_⟩
    · rintro producer ⟨rep, hrep, -, hnone, -⟩
      rw [replications_assign, Table.get_modify_self] at hrep
      obtain ⟨-, -, rfl⟩ := Option.map_eq_some_iff.mp hrep
      cases hnone
    · rw [replications_assign]
      exact Table.get_modify_of_ne _ _ hk
    · unfold Db.assign Db.charge
      cases t.decision.charge <;> rfl

lemma settles_produceOne (h : produceOne env db producer r = .ok db') : Settles db db' r := by
  unfold produceOne at h
  split_ifs at h
  split at h
  · cases h
  · rename_i rep hrep
    split at h
    · rename_i follower event hfollower hevent
      dsimp only at h
      split at h
      · cases h
      · rename_i found hadm
        cases hdecision : decision env (copierExecuteDemoArmed env.flags) r rep follower event found with
        | error reason => simp [hdecision, Except.map] at h
        | ok d =>
          rw [hdecision] at h
          obtain rfl := Except.ok.inj h
          exact settles_commit rfl (status_of_decision hdecision)
      · rename_i a hadm
        cases hlive : produceLive env db r rep follower event a with
        | error reason => simp [hlive, Except.map] at h
        | ok d =>
          rw [hlive] at h
          obtain rfl := Except.ok.inj h
          refine settles_commit rfl fun hjob => ?_
          unfold produceLive at hlive
          split at hlive
          · cases hlive
          · split at hlive
            · cases hlive
            · split_ifs at hlive
              -- a live opening always has a job
              have hfits := (of_decideOpenLive hlive).1.jobType
              rw [hjob] at hfits
              cases hfits
    · cases h

lemma consider_of_accepted (h : Accepted producer reading db r) :
    Settles db (consider reading producer r db) r := by
  obtain ⟨hraises, hok⟩ := h
  cases hone : produceOne (reading.env r) db producer r with
  | error reason => simp [hone, Except.toOption] at hok
  | ok db' =>
    have heq : consider reading producer r db = db' := by simp [consider, hone, hraises]
    rw [heq]
    exact settles_produceOne hone

lemma consider_of_refused (h : ¬ Accepted producer reading db r) :
    consider reading producer r db = db := by
  cases hone : produceOne (reading.env r) db producer r with
  | error reason => simp [consider, hone]
  | ok db' =>
    have hraises : reading.raises r = true := by
      by_contra hfalse
      exact h ⟨by simpa using hfalse, by simp [hone, Except.toOption]⟩
    simp [consider, hone, hraises]

/-! ### What a pass keeps -/

lemma followers_drain (ids : List ℕ) (db : Db) :
    (drain producer reading ids db).followers = db.followers := by
  induction ids generalizing db with
  | nil => rfl
  | cons i ids ih =>
    refine (ih (consider reading producer i db)).trans ?_
    by_cases hi : Accepted producer reading db i
    · exact (consider_of_accepted hi).followers
    · rw [consider_of_refused hi]

lemma get_drain_of_not_mem {ids : List ℕ} (hk : k ∉ ids) (db : Db) :
    (drain producer reading ids db).replications.get k = db.replications.get k := by
  induction ids generalizing db with
  | nil => rfl
  | cons i ids ih =>
    rw [List.mem_cons, not_or] at hk
    refine (ih hk.2 (consider reading producer i db)).trans ?_
    by_cases hi : Accepted producer reading db i
    · exact (consider_of_accepted hi).others k hk.1
    · rw [consider_of_refused hi]

lemma Pending.congr (h : Pending db' producer k)
    (hrow : db'.replications.get k = db.replications.get k) : Pending db producer k := by
  obtain ⟨rep, hrep, hrest⟩ := h
  exact ⟨rep, by rw [← hrow]; exact hrep, hrest⟩

/-- What waits after a part of a pass has not been touched by it. -/
lemma get_drain_of_pending {ids : List ℕ} (h : Pending (drain producer reading ids db) producer k) :
    (drain producer reading ids db).replications.get k = db.replications.get k := by
  induction ids generalizing db with
  | nil => rfl
  | cons i ids ih =>
    have hrest := @ih (consider reading producer i db) h
    refine hrest.trans ?_
    by_cases hi : Accepted producer reading db i
    · have hsettles := consider_of_accepted hi
      have hne : k ≠ i := by
        rintro rfl
        exact hsettles.settled producer (Pending.congr h hrest)
      exact hsettles.others k hne
    · rw [consider_of_refused hi]

/-- Nothing begins to wait in a pass. -/
lemma pending_of_drain {ids : List ℕ} (h : Pending (drain producer reading ids db) producer k) :
    Pending db producer k := h.congr (get_drain_of_pending h)

lemma exists_settled {ids : List ℕ} (hk : k ∈ ids) (haccepted : Accepted producer reading db k) :
    ∃ i ∈ ids, ¬ Pending (drain producer reading ids db) producer i := by
  induction ids generalizing db with
  | nil => cases hk
  | cons i ids ih =>
    by_cases hi : Accepted producer reading db i
    · refine ⟨i, List.mem_cons_self, fun hpending => ?_⟩
      exact (consider_of_accepted hi).settled producer
        (pending_of_drain (k := i) hpending)
    · have hk' : k ∈ ids := by
        rcases List.mem_cons.mp hk with rfl | hmem
        · exact absurd haccepted hi
        · exact hmem
      obtain ⟨j, hj, hsettled⟩ := ih hk' haccepted
      refine ⟨j, List.mem_cons_of_mem i hj, ?_⟩
      rw [drain, List.foldl_cons, consider_of_refused hi]
      exact hsettled

lemma settled_of_turn (hr : r ∈ batch limit db producer)
    (haccepted : Accepted producer reading (turn producer limit reading db r) r) :
    ¬ Pending (drain producer reading (batch limit db producer) db) producer r := by
  have hsplit : batch limit db producer = (batch limit db producer).takeWhile (· ≠ r) ++
      (batch limit db producer).dropWhile (· ≠ r) := (List.takeWhile_append_dropWhile ..).symm
  have hhead : ∃ rest, (batch limit db producer).dropWhile (· ≠ r) = r :: rest := by
    generalize batch limit db producer = ids at hr
    induction ids with
    | nil => cases hr
    | cons i ids ih =>
      by_cases hi : i = r
      · exact ⟨ids, by simp [hi]⟩
      · obtain ⟨rest, hrest⟩ := ih (List.mem_of_ne_of_mem (Ne.symm hi) hr)
        exact ⟨rest, by simpa [List.dropWhile_cons, hi] using hrest⟩
  obtain ⟨rest, hrest⟩ := hhead
  intro hpending
  rw [hsplit, hrest, drain, List.foldl_append, List.foldl_cons] at hpending
  exact (consider_of_accepted haccepted).settled producer (pending_of_drain (k := r) hpending)

end

/-! ### Rounds -/

/-- A disable policy under which a close is to be copied for a disabled follower. -/
def mirrorsCloses : Replication.DisablePolicy → Bool
  | .keepManaging | .close => true
  | .detach | .unknown => false

/-- The rows with the follower of the intent taken for enabled. -/
def Db.asEnabled (db : Db) (r : ℕ) : Db :=
  { db with
    followers := db.followers.modify (((db.replications.get r).map (·.followerId)).getD 0) fun follower =>
      { follower with enabled := true } }

/-- The intent of the follower is to be copied: the follower is enabled, or it is disabled under a policy that
mirrors closes and the intent is a close. -/
def Copied (policy : ℕ → Replication.DisablePolicy) (producer : Producer) (db : Db) (r : ℕ) : Prop :=
  FollowerEnabled db r ∨
    producer = .close ∧ ∃ rep, db.replications.get r = some rep ∧ mirrorsCloses (policy rep.followerId) = true

/-- Consecutive passes of a producer, with what they read, and the rows that they find. -/
structure Rounds where
  readings : ℕ → Reading
  dbs : ℕ → Db

/-- Between two passes other parties may do anything, except that they do not take the intent away and record
none before it. -/
structure Rounds.Waits (rounds : Rounds) (producer : Producer) (limit r : ℕ) : Prop where
  pending : Pending (rounds.dbs 0) producer r
  stays : ∀ n, Pending (producePending producer limit (rounds.readings n) (rounds.dbs n)) producer r →
    Pending (rounds.dbs (n + 1)) producer r
  serial : ∀ n, ∀ k < r, k ∈ waiting (rounds.dbs (n + 1)) producer →
    Pending (producePending producer limit (rounds.readings n) (rounds.dbs n)) producer k ∧
      k ∈ waiting (rounds.dbs n) producer

/-- As long as the intent waits, its admission accepts it, with the follower taken for enabled where a close is
to be copied for a disabled one. -/
def Rounds.Keeps (rounds : Rounds) (policy : ℕ → Replication.DisablePolicy) (producer : Producer)
    (limit r : ℕ) : Prop :=
  ∀ n, Pending (rounds.dbs n) producer r →
    copierExecuteEnabled (rounds.readings n).gate = true ∧ Copied policy producer (rounds.dbs n) r ∧
      Accepted producer (rounds.readings n)
        ((turn producer limit (rounds.readings n) (rounds.dbs n) r).asEnabled r) r

def Rounds.Produces (rounds : Rounds) (producer : Producer) (limit r : ℕ) : Prop :=
  ∃ n, Pending (rounds.dbs n) producer r ∧
    ¬ Pending (producePending producer limit (rounds.readings n) (rounds.dbs n)) producer r

/-- The batch is made of older intents that are all refused. -/
def Blocked (producer : Producer) (limit : ℕ) (reading : Reading) (db : Db) (r : ℕ) : Prop :=
  r ∉ batch limit db producer ∧ ∀ k ∈ batch limit db producer, ¬ Accepted producer reading db k

/-- As long as the intent waits, its follower is enabled and the batch is not blocked. -/
def Rounds.Free (rounds : Rounds) (producer : Producer) (limit r : ℕ) : Prop :=
  ∀ n, Pending (rounds.dbs n) producer r → FollowerEnabled (rounds.dbs n) r ∧
    ¬ Blocked producer limit (rounds.readings n) (rounds.dbs n) r

section

variable {rounds : Rounds} {policy : ℕ → Replication.DisablePolicy} {producer : Producer}
  {limit r n : ℕ} {db : Db} {reading : Reading}

lemma asEnabled_of_followerEnabled (h : FollowerEnabled db r) : db.asEnabled r = db := by
  obtain ⟨rep, follower, hrep, hfollower, henabled⟩ := h
  have hfollowers : (db.followers.modify rep.followerId fun follower =>
      { follower with enabled := true }) = db.followers := by
    refine Table.modify_eq_self fun row hrow => ?_
    obtain rfl : row = follower := Option.some.inj (hrow.symm.trans hfollower)
    rw [← henabled]
  simp only [Db.asEnabled, hrep, Option.map_some, Option.getD_some, hfollowers]

lemma followerEnabled_turn (h : FollowerEnabled db r) :
    FollowerEnabled (turn producer limit reading db r) r := by
  obtain ⟨rep, follower, hrep, hfollower, henabled⟩ := h
  have hout : r ∉ (batch limit db producer).takeWhile (· ≠ r) := by
    intro hmem
    simpa using List.mem_takeWhile_imp hmem
  refine ⟨rep, follower, ?_, ?_, henabled⟩
  · rw [turn, get_drain_of_not_mem hout]
    exact hrep
  · rw [turn, followers_drain]
    exact hfollower

def older (db : Db) (producer : Producer) (r : ℕ) : Finset ℕ :=
  (waiting db producer).toFinset.filter (· < r)

lemma card_older_lt (hwaits : rounds.Waits producer limit r)
    (hpending : Pending (rounds.dbs n) producer r)
    (hgate : copierExecuteEnabled (rounds.readings n).gate = true)
    (henabled : FollowerEnabled (rounds.dbs n) r)
    (hopen : ¬ Blocked producer limit (rounds.readings n) (rounds.dbs n) r)
    (hout : r ∉ batch limit (rounds.dbs n) producer) :
    (older (rounds.dbs (n + 1)) producer r).card < (older (rounds.dbs n) producer r).card := by
  have hpass : producePending producer limit (rounds.readings n) (rounds.dbs n) =
      drain producer (rounds.readings n) (batch limit (rounds.dbs n) producer) (rounds.dbs n) := by
    simp [producePending, hgate]
  have hexists : ∃ k ∈ batch limit (rounds.dbs n) producer,
      Accepted producer (rounds.readings n) (rounds.dbs n) k := by
    by_contra hnone
    exact hopen ⟨hout, fun k hk haccepted => hnone ⟨k, hk, haccepted⟩⟩
  obtain ⟨k, hk, haccepted⟩ := hexists
  obtain ⟨i, hi, hsettled⟩ := exists_settled hk haccepted
  have hwaiting : r ∈ waiting (rounds.dbs n) producer := mem_waiting.mpr ⟨hpending, henabled⟩
  refine Finset.card_lt_card (Finset.ssubset_iff_of_subset ?_ |>.mpr ⟨i, ?_, ?_⟩)
  · intro j hj
    simp only [older, Finset.mem_filter, List.mem_toFinset] at hj ⊢
    exact ⟨(hwaits.serial n j hj.2 hj.1).2, hj.2⟩
  · simp only [older, Finset.mem_filter, List.mem_toFinset]
    exact ⟨List.mem_of_mem_take hi, lt_of_mem_batch hi hwaiting hout⟩
  · intro hmem
    simp only [older, Finset.mem_filter, List.mem_toFinset] at hmem
    have hstill := (hwaits.serial n i hmem.2 hmem.1).1
    rw [hpass] at hstill
    exact hsettled hstill

/-- **Every intent that is accepted is produced**, if its follower is enabled and no batch consists of older
intents that are refused. -/
theorem producers_reach (rounds : Rounds) (policy : ℕ → Replication.DisablePolicy) (producer : Producer)
    (limit r : ℕ) (hwaits : rounds.Waits producer limit r) (hkeeps : rounds.Keeps policy producer limit r)
    (hfree : rounds.Free producer limit r) : rounds.Produces producer limit r := by
  have hmain : ∀ m n, Pending (rounds.dbs n) producer r →
      (older (rounds.dbs n) producer r).card = m → rounds.Produces producer limit r := by
    intro m
    induction m using Nat.strong_induction_on with
    | _ m ih =>
      intro n hpending hcard
      obtain ⟨hgate, -, haccepted⟩ := hkeeps n hpending
      obtain ⟨henabled, hopen⟩ := hfree n hpending
      have hpass : producePending producer limit (rounds.readings n) (rounds.dbs n) =
          drain producer (rounds.readings n) (batch limit (rounds.dbs n) producer) (rounds.dbs n) := by
        simp [producePending, hgate]
      by_cases hbatch : r ∈ batch limit (rounds.dbs n) producer
      · -- its turn comes in this pass
        rw [asEnabled_of_followerEnabled (followerEnabled_turn henabled)] at haccepted
        exact ⟨n, hpending, by rw [hpass]; exact settled_of_turn hbatch haccepted⟩
      · by_cases hafter : Pending (producePending producer limit (rounds.readings n) (rounds.dbs n))
            producer r
        · have hlt := card_older_lt hwaits hpending hgate henabled hopen hbatch
          exact ih _ (hcard ▸ hlt) (n + 1) (hwaits.stays n hafter) rfl
        · exact ⟨n, hpending, hafter⟩
  exact hmain _ 0 hwaits.pending rfl

/-- Where a batch is blocked and nobody else moves, the intent waits for ever. -/
theorem blocked_forever (hblocked : Blocked producer limit reading db r) :
    producePending producer limit reading db = db := by
  obtain ⟨-, hrefused⟩ := hblocked
  unfold producePending
  split_ifs
  · generalize batch limit db producer = ids at hrefused
    induction ids with
    | nil => rfl
    | cons i ids ih =>
      rw [drain, List.foldl_cons, consider_of_refused (hrefused i List.mem_cons_self)]
      exact ih fun k hk => hrefused k (List.mem_cons_of_mem i hk)
  · rfl

lemma pending_of_producePending {k : ℕ}
    (h : Pending (producePending producer limit reading db) producer k) : Pending db producer k := by
  unfold producePending at h
  split_ifs at h
  · exact pending_of_drain h
  · exact h

lemma mem_waiting_of_producePending {k : ℕ}
    (h : k ∈ waiting (producePending producer limit reading db) producer) : k ∈ waiting db producer := by
  unfold producePending at h
  split_ifs at h
  · obtain ⟨hpending, rep, follower, hrep, hfollower, henabled⟩ := mem_waiting.mp h
    rw [get_drain_of_pending hpending] at hrep
    rw [followers_drain] at hfollower
    exact mem_waiting.mpr ⟨pending_of_drain hpending, rep, follower, hrep, hfollower, henabled⟩
  · exact h

end

/-! ### A pass and the sessions -/

section

variable {s : State} {p r f : ℕ} {producer : Producer} {gate flags : Flags} {rep : CopierReplication}
  {follower : CopierFollower} {event : MasterEvent}

end

/-! ### A blocked batch and a disabled follower -/

/-- The producers are on for demo accounts and not armed. -/
def sampleReading : Reading where
  gate := sampleEnv.flags
  env _ := sampleEnv
  raises _ := false

/-- The rows with two full closes: the position of the first one has no verified ticket at the follower. -/
def twoCloses (enabled : Bool) : Db :=
  let close (sequence : ℕ) : MasterEvent :=
    ⟨{ LiveExecution.sampleEvent sequence with eventType := .fullClose }, 0, none, none⟩
  let intent (event : ℕ) : CopierReplication :=
    ⟨{ LiveExecution.sampleIntent event with requestedOp := .close }, none, .blank⟩
  (run step (init sampleEnv)
    [.configureFollower 1 ⟨1, 2, enabled, { mode := .multiplier }⟩,
      .recordEvent 1 ⟨{ LiveExecution.sampleEvent 1 with positionTicket := 3 }, 0, none, none⟩,
      .recordReplication 1
        ⟨{ LiveExecution.sampleIntent 1 with status := .executionVerified }, some 900, .matched⟩,
      .recordEvent 2 (close 2), .recordReplication 2 (intent 2),
      .recordEvent 3 (close 3), .recordReplication 3 (intent 3)]).db

def passes (limit : ℕ) (enabled : Bool) : Rounds where
  readings _ := sampleReading
  dbs n := (producePending .close limit sampleReading)^[n] (twoCloses enabled)

lemma pending_twoCloses (enabled : Bool) : Pending (twoCloses enabled) .close 3 := by
  cases enabled <;> exact ⟨_, rfl, rfl, rfl, rfl⟩

lemma copied_twoCloses (enabled : Bool) :
    Copied (fun _ => .keepManaging) .close (twoCloses enabled) 3 := by
  cases enabled <;> exact .inr ⟨rfl, _, rfl, rfl⟩

lemma accepted_twoCloses (enabled : Bool) (limit : Fin 3) :
    Accepted .close sampleReading
      ((turn .close limit sampleReading (twoCloses enabled) 3).asEnabled 3) 3 := by
  revert enabled limit
  decide +kernel

lemma waits_passes (limit : ℕ) (enabled : Bool) : (passes limit enabled).Waits .close limit 3 where
  pending := pending_twoCloses enabled
  stays := by
    intro n h
    show Pending ((producePending .close limit sampleReading)^[n + 1] (twoCloses enabled)) .close 3
    rwa [Function.iterate_succ_apply']
  serial := by
    intro n k _ hk
    have heq : (passes limit enabled).dbs (n + 1) =
        producePending .close limit sampleReading ((passes limit enabled).dbs n) :=
      Function.iterate_succ_apply' ..
    rw [heq] at hk
    exact ⟨(mem_waiting.mp hk).1, mem_waiting_of_producePending hk⟩

lemma dbs_passes {limit : ℕ} {enabled : Bool}
    (h : Blocked .close limit sampleReading (twoCloses enabled) 3) (n : ℕ) :
    (passes limit enabled).dbs n = twoCloses enabled :=
  Function.iterate_fixed (blocked_forever h) n

lemma not_produces {limit : Fin 3} {enabled : Bool}
    (h : Blocked .close limit sampleReading (twoCloses enabled) 3) :
    (passes limit enabled).Keeps (fun _ => .keepManaging) .close limit 3 ∧
      ¬ (passes limit enabled).Produces .close limit 3 := by
  constructor
  · intro n _
    rw [dbs_passes h]
    have hgate : copierExecuteEnabled sampleEnv.flags = true := by decide
    exact ⟨hgate, copied_twoCloses enabled, accepted_twoCloses enabled limit⟩
  · rintro ⟨n, hpending, hsettled⟩
    rw [dbs_passes h] at hpending hsettled
    exact hsettled (by rw [show (passes limit enabled).readings n = sampleReading from rfl,
      blocked_forever h]; exact hpending)

/-- **An accepted close is never produced**: behind an older one that is refused for good, with a limit of one;
and under any limit, if its follower is disabled under the policy that keeps managing its positions. -/
theorem not_producers_reach :
    ((passes 1 true).Waits .close 1 3 ∧ (passes 1 true).Keeps (fun _ => .keepManaging) .close 1 3 ∧
        ¬ (passes 1 true).Produces .close 1 3) ∧
      (passes 2 false).Waits .close 2 3 ∧ (passes 2 false).Keeps (fun _ => .keepManaging) .close 2 3 ∧
        ¬ (passes 2 false).Produces .close 2 3 :=
  ⟨⟨waits_passes 1 true, @not_produces 1 true ⟨by decide +kernel, by decide +kernel⟩⟩,
    waits_passes 2 false, @not_produces 2 false ⟨by decide +kernel, by decide +kernel⟩⟩

/-- With a limit of two the close is reached. -/
theorem producers_reach_passes : (passes 2 true).Produces .close 2 3 := by
  have hsettled : ∀ n, ¬ Pending ((passes 2 true).dbs (n + 1)) .close 3 := by
    intro n
    induction n with
    | zero =>
      rintro ⟨rep, hrep, hstatus, -⟩
      have hrow : (((passes 2 true).dbs 1).replications.get 3).map (·.status)
          = some .shadowJobRecorded := by decide +kernel
      rw [hrep, Option.map_some, Option.some.injEq, hstatus] at hrow
      cases hrow
    | succ n ih =>
      intro h
      have heq : (passes 2 true).dbs (n + 1 + 1) =
          producePending .close 2 sampleReading ((passes 2 true).dbs (n + 1)) :=
        Function.iterate_succ_apply' ..
      rw [heq] at h
      exact ih (pending_of_producePending h)
  refine producers_reach (passes 2 true) (fun _ => .keepManaging) .close 2 3 (waits_passes 2 true)
    (fun n hpending => ?_) fun n hpending => ?_
  · cases n with
    | zero => exact ⟨by decide, copied_twoCloses true, accepted_twoCloses true 2⟩
    | succ n => exact absurd hpending (hsettled n)
  · cases n with
    | zero =>
      refine ⟨⟨_, _, rfl, rfl, rfl⟩, fun hblocked => hblocked.1 ?_⟩
      show 3 ∈ batch 2 (twoCloses true) .close
      decide +kernel
    | succ n => exact absurd hpending (hsettled n)

end ExecutionProducer
end GuvFX
