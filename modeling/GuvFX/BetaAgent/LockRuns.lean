/-
# Any number of threads at the runtime locks

A thread that changes a runtime takes a permit, then the lock of the runtime in one section with the
look at the shutdown flag and the count; it gives up the lock and the count in another section, and
the permit last.  A thread that is refused gives its permit back.  The permits that are missing are
those of the threads on their way, the locks are those of the threads inside, and the count is their
number; after the drain has begun no thread comes in.
-/
import GuvFX.Lib.Runs
import GuvFX.BetaAgent.RuntimeLocks

namespace GuvFX
namespace RuntimeLocks

open Runs

/-- Where a thread is in `acquire`. -/
inductive Stage
  | outside
  | permitted (runtime : String)
  | inside (runtime : String)
  /-- Only the permit is still to be given back. -/
  | leaving
  deriving DecidableEq

/-- The threads have the numbers of their places in the list. -/
structure State where
  locks : RuntimeLocks
  stages : List Stage

inductive Action
  | enter (id : ℕ) (runtime : String)
  /-- The section of the entry; it may raise before it has taken the lock. -/
  | guard (id : ℕ) (raises : Bool)
  | exit (id : ℕ)
  | leave (id : ℕ)
  | drain

def State.start (maxGlobalMutations threads : ℕ) : State :=
  ⟨.initial maxGlobalMutations, List.replicate threads .outside⟩

def step (s : State) : Action → State
  | .enter id runtime =>
    match s.stages[id]?, s.locks.takePermit with
    | some .outside, .ok locks => ⟨locks, s.stages.set id (.permitted runtime)⟩
    | _, _ => s
  | .guard id raises =>
    match s.stages[id]? with
    | some (.permitted runtime) =>
      match (if raises then .error .agentBusy else s.locks.lock runtime id) with
      | .ok locks => ⟨locks, s.stages.set id (.inside runtime)⟩
      | .error _ => ⟨s.locks, s.stages.set id .leaving⟩
    | _ => s
  | .exit id =>
    match s.stages[id]? with
    | some (.inside _) => ⟨s.locks.unlock id, s.stages.set id .leaving⟩
    | _ => s
  | .leave id =>
    match s.stages[id]? with
    | some .leaving => ⟨s.locks.returnPermit, s.stages.set id .outside⟩
    | _ => s
  | .drain => { s with locks := s.locks.beginDrain }

/-! ### What a step does -/

def State.Inside (s : State) (id : ℕ) (runtime : String) : Prop :=
  s.stages[id]? = some (.inside runtime)

def Stage.isInside : Stage → Bool
  | .inside _ => true
  | _ => false

/-- The number of the threads that have entered and not exited. -/
def State.holders (s : State) : ℕ := s.stages.countP Stage.isInside

/-- The number of the permits that are in use. -/
def State.busy (s : State) : ℕ := s.stages.countP (· ≠ .outside)

structure Inv (n : ℕ) (s : State) : Prop where
  permits : s.locks.permits + s.busy = n
  held : Locks.Held s.Inside s.locks.perRuntime
  active : s.locks.active = s.holders

variable {n : ℕ} {s : State} {id : ℕ} {stage stage' : Stage}

lemma countP_moved (stage' : Stage) (p : Stage → Bool) (h : s.stages[id]? = some stage) :
    (s.stages.set id stage').countP p + (if p stage then 1 else 0) =
      s.stages.countP p + (if p stage' then 1 else 0) := by
  obtain ⟨hid, rfl⟩ := List.getElem?_eq_some_iff.mp h
  rw [List.countP_set hid]
  by_cases hp : p s.stages[id] = true
  · have hpos : 0 < s.stages.countP p := List.countP_pos_iff.mpr ⟨_, List.getElem_mem hid, hp⟩
    rw [if_pos hp]
    omega
  · rw [if_neg hp]
    omega

lemma inside_moved (h : s.stages[id]? = some stage) {locks : RuntimeLocks} {q : ℕ} {r : String} :
    State.Inside ⟨locks, s.stages.set id stage'⟩ q r ↔
      if q = id then stage' = .inside r else s.Inside q r := by
  obtain ⟨hid, -⟩ := List.getElem?_eq_some_iff.mp h
  unfold State.Inside
  rw [List.getElem?_set]
  by_cases hq : q = id
  · subst hq
    simp [hid]
  · rw [if_neg (Ne.symm hq), if_neg hq]

lemma Inv.moved (hs : Inv n s) (h : s.stages[id]? = some stage) {locks : RuntimeLocks}
    (hstage : stage.isInside = false) (hstage' : stage'.isInside = false)
    (hpermits : locks.permits + (if stage' ≠ .outside then 1 else 0) =
      s.locks.permits + (if stage ≠ .outside then 1 else 0))
    (hlocks : locks.perRuntime = s.locks.perRuntime) (hactive : locks.active = s.locks.active) :
    Inv n ⟨locks, s.stages.set id stage'⟩ := by
  have hbusy := countP_moved stage' (fun t => t ≠ .outside) h
  have hholders := countP_moved stage' Stage.isInside h
  refine ⟨?_, ?_, ?_⟩
  · have hold := hs.permits
    simp only [State.busy, decide_eq_true_eq] at hbusy hold ⊢
    omega
  · rw [hlocks]
    refine hs.held.congr fun q r => ?_
    rw [inside_moved h]
    split_ifs with hq
    · subst hq
      refine iff_of_false (fun heq => by rw [heq] at hstage'; cases hstage') fun hin => ?_
      rw [State.Inside, h] at hin
      cases hin
      cases hstage
    · rfl
  · rw [hactive, hs.active]
    simpa [State.holders, hstage, hstage'] using hholders.symm

lemma inv_step (s : State) (a : Action) (hs : Inv n s) : Inv n (step s a) := by
  cases a with
  | enter id runtime =>
    simp only [step]
    split
    · rename_i locks hid htake
      refine hs.moved hid rfl rfl ?_ (perRuntime_of_takePermit htake) ?_ <;>
      · unfold takePermit at htake
        split_ifs at htake
        cases htake
        simp <;> omega
    · exact hs
  | guard id raises =>
    simp only [step]
    split
    · rename_i runtime hid
      split
      · rename_i locks hlock
        split_ifs at hlock
        obtain ⟨hfree, hperRuntime⟩ := perRuntime_of_lock hlock
        have hbusy := countP_moved (.inside runtime) (fun t => t ≠ .outside) hid
        have hholders := countP_moved (.inside runtime) Stage.isInside hid
        have hrest : locks.permits = s.locks.permits ∧ locks.active = s.locks.active + 1 := by
          unfold lock at hlock
          split_ifs at hlock
          cases hlock
          exact ⟨rfl, rfl⟩
        refine ⟨?_, ?_, ?_⟩
        · rw [hrest.1, ← hs.permits]
          simpa [State.busy] using hbusy
        · rw [hperRuntime]
          refine hs.held.take hfree (fun q r hq => ?_) fun r => ?_
          · rw [inside_moved hid, if_neg hq]
          · rw [inside_moved hid, if_pos rfl, State.Inside, hid]
            simp [eq_comm]
        · rw [hrest.2, hs.active]
          simpa [State.holders, Stage.isInside] using hholders.symm
      · exact hs.moved hid rfl rfl (by simp) rfl rfl
    · exact hs
  | exit id =>
    simp only [step]
    split
    · rename_i runtime hid
      have hbusy := countP_moved .leaving (fun t => t ≠ .outside) hid
      have hholders := countP_moved .leaving Stage.isInside hid
      refine ⟨?_, ?_, ?_⟩
      · rw [← hs.permits]
        simpa [State.busy, unlock] using hbusy
      · refine hs.held.release (fun q r hq => ?_) fun r => ?_
        · rw [inside_moved hid, if_neg hq]
        · rw [inside_moved hid, if_pos rfl]
          simp
      · have hactive := hs.active
        simp only [Stage.isInside, if_true, Bool.false_eq_true, if_false] at hholders
        simp only [unlock, State.holders] at hactive ⊢
        omega
    · exact hs
  | leave id =>
    simp only [step]
    split
    · rename_i hid
      exact hs.moved hid rfl rfl (by simp [returnPermit]) rfl rfl
    · exact hs
  | drain => exact ⟨hs.permits, hs.held, hs.active⟩

lemma inv_start (n threads : ℕ) : Inv n (.start n threads) := by
  refine ⟨by simp [State.start, State.busy, initial, List.countP_replicate], ?_, ?_⟩
  · have hnobody : ∀ q r, (State.start n threads).Inside q r ↔ False := by
      intro q r
      simp only [State.Inside, State.start, iff_false]
      intro h
      cases List.eq_of_mem_replicate (List.mem_of_getElem? h)
    exact Locks.held_free.congr hnobody
  · simp [State.start, State.holders, initial, Stage.isInside, List.countP_replicate]

/-- A step of a thread that does not come in. -/
lemma inside_of_moved (h : s.stages[id]? = some stage) (hstage' : stage'.isInside = false)
    {locks : RuntimeLocks} {q : ℕ} {r : String}
    (hin : State.Inside ⟨locks, s.stages.set id stage'⟩ q r) : s.Inside q r := by
  rw [inside_moved h] at hin
  split_ifs at hin
  · rw [hin] at hstage'
    cases hstage'
  · exact hin

lemma draining_step (s : State) (a : Action) (h : s.locks.draining = true) :
    (step s a).locks.draining = true ∧ ∀ q r, (step s a).Inside q r → s.Inside q r := by
  cases a with
  | enter id runtime =>
    simp only [step]
    split
    · rename_i locks hid htake
      refine ⟨?_, fun q r => inside_of_moved hid rfl⟩
      unfold takePermit at htake
      split_ifs at htake
      cases htake
      exact h
    · exact ⟨h, fun _ _ hin => hin⟩
  | guard id raises =>
    simp only [step]
    split
    · rename_i runtime hid
      split
      · rename_i locks hlock
        simp only [lock, h, if_true] at hlock
        split_ifs at hlock
      · exact ⟨h, fun q r => inside_of_moved hid rfl⟩
    · exact ⟨h, fun _ _ hin => hin⟩
  | exit id =>
    simp only [step]
    split
    · rename_i runtime hid
      exact ⟨h, fun q r => inside_of_moved hid rfl⟩
    · exact ⟨h, fun _ _ hin => hin⟩
  | leave id =>
    simp only [step]
    split
    · rename_i hid
      exact ⟨h, fun q r => inside_of_moved hid rfl⟩
    · exact ⟨h, fun _ _ hin => hin⟩
  | drain => exact ⟨rfl, fun _ _ hin => hin⟩

/-- Whatever the threads do, one of them is inside for a runtime, no more of them than there are permits
are inside, their number is the count, and after a drain nobody comes in. -/
theorem lock_runs (n threads : ℕ) (as : List Action) :
    let s := run step (.start n threads) as
    (∀ p q r, s.Inside p r → s.Inside q r → p = q) ∧ s.holders ≤ n ∧ s.locks.active = s.holders ∧
      (.drain ∈ as → ∀ bs q r, (run step s bs).Inside q r → s.Inside q r) := by
  have hs : Inv n (run step (.start n threads) as) := run_invariant inv_step (inv_start n threads) as
  refine ⟨fun p q r => hs.held.unique, ?_, hs.active, fun hdrain bs => ?_⟩
  · have hle : ∀ s : State, s.holders ≤ s.busy := fun s =>
      List.countP_mono_left fun stage _ h => by cases stage <;> simp_all [Stage.isInside]
    have hpermits := hs.permits
    have := hle (run step (.start n threads) as)
    omega
  · -- the flag stays from the first drain on
    have hflag : (run step (.start n threads) as).locks.draining = true := by
      obtain ⟨pre, post, rfl⟩ := List.append_of_mem hdrain
      rw [run_append, run_cons]
      exact run_invariant (fun s a h => (draining_step s a h).1) rfl post
    generalize run step (.start n threads) as = s at hflag
    induction bs using List.reverseRecOn with
    | nil => exact fun q r h => h
    | append_singleton bs a ih =>
      intro q r h
      rw [run_concat] at h
      have hbs := run_invariant (fun s a h => (draining_step s a h).1) hflag bs
      exact ih q r ((draining_step _ a hbs).2 q r h)

end RuntimeLocks
end GuvFX
