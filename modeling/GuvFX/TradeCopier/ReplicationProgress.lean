/-
# Progress of the replication

A sweep takes the first events, up to its limit, that have no row at all.  An event of a master
without followers never gets a row, so it never leaves the window; and an event that has a row of
one follower is never taken again, even if the row of another follower is missing.
-/
import GuvFX.Lib.Runs
import GuvFX.TradeCopier.Replication

namespace GuvFX
namespace Replication

open Runs

/-! ### Windows of a list -/

section Windows

variable {α : Type*} [DecidableEq α] {l : List α} {p : α → Bool} {a : α}

/-- An element is among the first `n` that satisfy `p` if fewer than `n` of these come before it. -/
lemma mem_take_filter (hl : l.Nodup) (ha : a ∈ l) (hp : p a = true) (n : ℕ) :
    a ∈ (l.filter p).take n ↔ (l.takeWhile (· ≠ a)).countP p < n := by
  induction l generalizing n with
  | nil => cases ha
  | cons b l ih =>
    obtain ⟨hb, hl⟩ := List.nodup_cons.mp hl
    by_cases hab : b = a
    · subst hab
      cases n with
      | zero => simp
      | succ n => simp [hp]
    · have hmem : a ∈ l := by
        rcases List.mem_cons.mp ha with rfl | hmem
        · exact absurd rfl hab
        · exact hmem
      have htake : (b :: l).takeWhile (· ≠ a) = b :: l.takeWhile (· ≠ a) := by simp [hab]
      rw [htake, List.countP_cons]
      cases hpb : p b with
      | false => simpa [List.filter_cons, hpb] using ih hl hmem n
      | true =>
        cases n with
        | zero => simp
        | succ n =>
          have hne : ¬ a = b := fun h => hab h.symm
          simpa [List.filter_cons, hpb, hne] using ih hl hmem n

/-- If at least `n` of the elements that satisfy `p` come before `a`, the first `n` of them do. -/
lemma take_filter_eq (n : ℕ) (h : n ≤ (l.takeWhile (· ≠ a)).countP p) :
    (l.filter p).take n = ((l.takeWhile (· ≠ a)).filter p).take n := by
  rw [List.countP_eq_length_filter] at h
  conv_lhs => rw [← List.takeWhile_append_dropWhile (p := (· ≠ a)) (l := l), List.filter_append]
  exact List.take_append_of_le_length h

end Windows

/-! ### What a sweep is to achieve -/

def sweep (w : Facts) (limit : ℕ) (db : Db) : Db := replicatePending w (fun _ _ => false) limit db

def needs (db : Db) (e : ℕ × MasterEvent) : Bool :=
  (followersOf db e.2.masterAccountId).any fun f => f.2.enabled && !hasRow db e.1 f.1

def missing (db : Db) : List (ℕ × MasterEvent) := (inOrder db).filter (needs db)

/-- The sweep serves as many of these events as there are, or as its limit allows. -/
def Progress (w : Facts) (limit : ℕ) (db : Db) : Prop :=
  min limit (missing db).length
    ≤ ((missing db).filter fun e => !needs (sweep w limit db) e).length

/-- Sweeps that follow each other leave no enabled follower out. -/
def EventuallyAll (w : Facts) (limit : ℕ) (db : Db) : Prop :=
  ∃ n, missing ((sweep w limit)^[n] db) = []

/-- How many events without rows the sweep takes before it comes to `e`. -/
def ahead (db : Db) (e : ℕ × MasterEvent) : ℕ :=
  ((inOrder db).takeWhile (· ≠ e)).countP fun e' => unreplicated db e'.1

/-- Every event that is waited for is within reach; or the events within reach are as many as the
limit allows, and all of them are waited for. -/
def WellFilled (limit : ℕ) (db : Db) : Prop :=
  (∀ e ∈ missing db, unreplicated db e.1 = true ∧ ahead db e < limit) ∨
    limit ≤ (inOrder db).countP (fun e => unreplicated db e.1) ∧
      ∀ e ∈ inOrder db, unreplicated db e.1 = true → ahead db e < limit → needs db e = true

def stuck (db : Db) (e : ℕ × MasterEvent) : Bool :=
  unreplicated db e.1 && (followersOf db e.2.masterAccountId).isEmpty

/-- How many such events come before `e`. -/
def stuckBefore (db : Db) (e : ℕ × MasterEvent) : ℕ :=
  ((inOrder db).takeWhile (· ≠ e)).countP (stuck db)

/-- No event that is waited for has a row, and none is behind a window of stuck events. -/
def NobodyStarves (limit : ℕ) (db : Db) : Prop :=
  ∀ e ∈ missing db, unreplicated db e.1 = true ∧ stuckBefore db e < limit

/-! ### One sweep -/

section Sweep

variable {w : Facts} {limit : ℕ} {db : Db} {e : ℕ × MasterEvent}

lemma mem_inOrder : e ∈ inOrder db ↔ e ∈ db.events.rows := List.mem_insertionSort _

lemma nodup_inOrder (db : Db) : (inOrder db).Nodup := by
  have hrows : db.events.rows.Nodup := List.Nodup.of_map _ db.events.nodup
  exact ((List.perm_insertionSort _ _).nodup_iff).mpr hrows

lemma mem_window (h : e ∈ window db limit) : e ∈ inOrder db ∧ unreplicated db e.1 = true := by
  have hmem := List.mem_of_mem_take h
  exact List.mem_filter.mp hmem

lemma nodup_window (db : Db) (limit : ℕ) : (window db limit).Nodup :=
  ((nodup_inOrder db).filter _).sublist (List.take_sublist _ _)

lemma unreplicated_iff {k : ℕ} : unreplicated db k = true ↔ ∀ f, hasRow db k f = false := by
  simp only [unreplicated, hasRow, Bool.not_eq_true', List.any_eq_false, decide_eq_true_eq,
    not_and]
  constructor
  · exact fun h f row hrow hk => absurd hk (h row hrow)
  · exact fun h row hrow hk => h row.followerId row hrow hk rfl

lemma inOrder_sweep (w : Facts) (limit : ℕ) (db : Db) : inOrder (sweep w limit db) = inOrder db := by
  have hext := (replicatePending_spec w (fun _ _ => false) limit db).1
  rw [inOrder, sweep, hext.events, inOrder]

lemma followersOf_sweep (w : Facts) (limit : ℕ) (db : Db) (m : ℕ) :
    followersOf (sweep w limit db) m = followersOf db m := by
  have hext := (replicatePending_spec w (fun _ _ => false) limit db).1
  rw [followersOf, sweep, hext.followers, followersOf]

lemma hasRow_sweep (he : e ∈ inOrder db) (f : ℕ) :
    hasRow (sweep w limit db) e.1 f = true ↔
      hasRow db e.1 f = true ∨ e ∈ window db limit ∧ follows db e.2.masterAccountId f := by
  have hspec := (replicatePending_spec w (fun _ _ => false) limit db).2 e.1 f
  rw [sweep, hspec]
  refine or_congr_right ?_
  constructor
  · rintro ⟨event, hevent, -, hf⟩
    -- an event has one row under its key
    have hsame : event = e.2 :=
      Table.eq_of_mem_rows (mem_inOrder.mp (mem_window hevent).1) (mem_inOrder.mp he)
    rw [hsame] at hevent hf
    exact ⟨hevent, hf⟩
  · rintro ⟨hwindow, hf⟩
    exact ⟨e.2, hwindow, rfl, hf⟩

lemma needs_of_mem_window (h : e ∈ window db limit) : needs (sweep w limit db) e = false := by
  rw [needs, followersOf_sweep, List.any_eq_false]
  intro f hf
  have hrow : hasRow (sweep w limit db) e.1 f.1 = true :=
    (hasRow_sweep (mem_window h).1 f.1).mpr (Or.inr ⟨h, f.2, hf⟩)
  simp [hrow]

lemma sweep_of_not_mem_window (he : e ∈ inOrder db) (h : e ∉ window db limit) :
    needs (sweep w limit db) e = needs db e ∧
      unreplicated (sweep w limit db) e.1 = unreplicated db e.1 := by
  have hrow : ∀ f, hasRow (sweep w limit db) e.1 f = hasRow db e.1 f := by
    intro f
    rw [Bool.eq_iff_iff, hasRow_sweep he f]
    simp [h]
  constructor
  · simp only [needs, followersOf_sweep, hrow]
  · rw [Bool.eq_iff_iff, unreplicated_iff, unreplicated_iff]
    simp only [hrow]

lemma replicated_of_mem_window (h : e ∈ window db limit)
    (hf : followersOf db e.2.masterAccountId ≠ []) :
    unreplicated (sweep w limit db) e.1 = false := by
  obtain ⟨f, hmem⟩ := List.exists_mem_of_ne_nil _ hf
  rw [Bool.eq_false_iff, Ne, unreplicated_iff]
  intro hno
  have hrow : hasRow (sweep w limit db) e.1 f.1 = true :=
    (hasRow_sweep (mem_window h).1 f.1).mpr (Or.inr ⟨h, f.2, hmem⟩)
  rw [hno f.1] at hrow
  cases hrow

lemma followersOf_ne_nil_of_needs (h : needs db e = true) :
    followersOf db e.2.masterAccountId ≠ [] := by
  obtain ⟨f, hf, -⟩ := List.any_eq_true.mp h
  exact List.ne_nil_of_mem hf

lemma mem_missing : e ∈ missing db ↔ e ∈ inOrder db ∧ needs db e = true := List.mem_filter

lemma mem_window_iff (he : e ∈ inOrder db) :
    e ∈ window db limit ↔ unreplicated db e.1 = true ∧ ahead db e < limit := by
  constructor
  · intro h
    have hun := (mem_window h).2
    have hp : (fun e' : ℕ × MasterEvent => unreplicated db e'.1) e = true := hun
    exact ⟨hun, (mem_take_filter (nodup_inOrder db) he hp limit).mp h⟩
  · rintro ⟨hun, hlt⟩
    have hp : (fun e' : ℕ × MasterEvent => unreplicated db e'.1) e = true := hun
    exact (mem_take_filter (nodup_inOrder db) he hp limit).mpr hlt

lemma length_window (db : Db) (limit : ℕ) :
    (window db limit).length = min limit ((inOrder db).countP fun e => unreplicated db e.1) := by
  rw [window, List.length_take, List.countP_eq_length_filter]

/-- The same condition, read off the window. -/
lemma wellFilled_iff (limit : ℕ) (db : Db) :
    WellFilled limit db ↔
      (∀ e ∈ missing db, e ∈ window db limit) ∨
        limit ≤ (window db limit).length ∧ ∀ e ∈ window db limit, needs db e = true := by
  refine or_congr ?_ (and_congr ?_ ?_)
  · exact forall₂_congr fun e he => (mem_window_iff (mem_missing.mp he).1).symm
  · rw [length_window, le_min_iff, and_iff_right le_rfl]
  · constructor
    · intro h e he
      obtain ⟨hin, -⟩ := mem_window he
      obtain ⟨hun, hlt⟩ := (mem_window_iff hin).mp he
      exact h e hin hun hlt
    · exact fun h e hin hun hlt => h e ((mem_window_iff hin).mpr ⟨hun, hlt⟩)

/-- **One sweep** serves as many events as it may exactly if its window is well filled. -/
theorem progress_iff_wellFilled (w : Facts) (limit : ℕ) (db : Db) :
    Progress w limit db ↔ WellFilled limit db := by
  have hserved : (missing db).filter (fun e => !needs (sweep w limit db) e)
      = (missing db).filter fun e => decide (e ∈ window db limit) := by
    refine List.filter_congr fun e he => ?_
    obtain ⟨hin, hneeds⟩ := mem_missing.mp he
    by_cases hmem : e ∈ window db limit
    · simp [hmem, needs_of_mem_window hmem]
    · rw [(sweep_of_not_mem_window hin hmem).1, hneeds]
      simp [hmem]
  have hmissing : (missing db).Nodup := (nodup_inOrder db).filter _
  rw [Progress, hserved, min_le_iff, wellFilled_iff, or_comm]
  refine or_congr ?_ ?_
  · constructor
    · intro hle e he
      have hall := List.length_filter_eq_length_iff.mp
        (le_antisymm (List.length_filter_le _ _) hle) e he
      simpa using hall
    · intro hall
      rw [List.length_filter_eq_length_iff.mpr fun e he => by simpa using hall e he]
  · -- the window is full of events that are waited for
    have hlen : (window db limit).length ≤ limit := List.length_take_le _ _
    constructor
    · intro hle
      have hsub : ((missing db).filter fun e => decide (e ∈ window db limit)).Subperm
          (window db limit) := by
        refine List.subperm_of_subset (hmissing.filter _) fun e he => ?_
        simpa using (List.mem_filter.mp he).2
      have hperm := hsub.perm_of_length_le (hlen.trans hle)
      refine ⟨hle.trans hsub.length_le, fun e he => ?_⟩
      exact (mem_missing.mp (List.mem_filter.mp (hperm.mem_iff.mpr he)).1).2
    · rintro ⟨hfull, hneeds⟩
      have hsub : (window db limit).Subperm
          ((missing db).filter fun e => decide (e ∈ window db limit)) := by
        refine List.subperm_of_subset (nodup_window db limit) fun e he => ?_
        rw [List.mem_filter]
        exact ⟨mem_missing.mpr ⟨(mem_window he).1, hneeds e he⟩, by simpa using he⟩
      exact hfull.trans hsub.length_le

end Sweep

/-! ### Sweeps that follow each other -/

section Sweeps

variable {w : Facts} {limit : ℕ} {db : Db} {e : ℕ × MasterEvent}

lemma missing_of_sweep (h : e ∈ missing (sweep w limit db)) :
    e ∈ missing db ∧ e ∉ window db limit := by
  obtain ⟨hin, hneeds⟩ := mem_missing.mp h
  rw [inOrder_sweep] at hin
  have hout : e ∉ window db limit := by
    intro hmem
    rw [needs_of_mem_window hmem] at hneeds
    cases hneeds
  rw [(sweep_of_not_mem_window hin hout).1] at hneeds
  exact ⟨mem_missing.mpr ⟨hin, hneeds⟩, hout⟩

lemma stuck_sweep (he : e ∈ inOrder db) : stuck (sweep w limit db) e = stuck db e := by
  simp only [stuck, followersOf_sweep]
  cases hno : (followersOf db e.2.masterAccountId).isEmpty with
  | false => simp
  | true =>
    simp only [Bool.and_true]
    rw [Bool.eq_iff_iff, unreplicated_iff, unreplicated_iff]
    have hrow : ∀ f, hasRow (sweep w limit db) e.1 f = hasRow db e.1 f := by
      intro f
      have hnone : ¬ follows db e.2.masterAccountId f := by
        rintro ⟨follower, hf⟩
        rw [List.isEmpty_iff.mp hno] at hf
        cases hf
      rw [Bool.eq_iff_iff, hasRow_sweep he f]
      simp [hnone]
    simp only [hrow]

lemma stuckBefore_sweep (w : Facts) (limit : ℕ) (db : Db) (e : ℕ × MasterEvent) :
    stuckBefore (sweep w limit db) e = stuckBefore db e := by
  rw [stuckBefore, inOrder_sweep]
  refine List.countP_congr fun e' he' => ?_
  rw [stuck_sweep ((List.takeWhile_sublist _).subset he')]

lemma stuckBefore_le_ahead (db : Db) (e : ℕ × MasterEvent) : stuckBefore db e ≤ ahead db e := by
  refine List.countP_mono_left fun e' _ hstuck => ?_
  exact (Bool.and_eq_true_iff.mp hstuck).1

/-- An event that is waited for, and has rows already or is behind too many stuck ones. -/
def Hopeless (limit : ℕ) (db : Db) (e : ℕ × MasterEvent) : Prop :=
  e ∈ missing db ∧ ¬ (unreplicated db e.1 = true ∧ stuckBefore db e < limit)

lemma hopeless_sweep (h : Hopeless limit db e) : Hopeless limit (sweep w limit db) e := by
  obtain ⟨hmissing, hno⟩ := h
  obtain ⟨hin, hneeds⟩ := mem_missing.mp hmissing
  have hout : e ∉ window db limit := by
    intro hmem
    obtain ⟨hun, hlt⟩ := (mem_window_iff hin).mp hmem
    exact hno ⟨hun, (stuckBefore_le_ahead db e).trans_lt hlt⟩
  obtain ⟨hneeds', hun'⟩ := sweep_of_not_mem_window (w := w) hin hout
  refine ⟨mem_missing.mpr ⟨?_, hneeds'.trans hneeds⟩, ?_⟩
  · rwa [inOrder_sweep]
  · rwa [hun', stuckBefore_sweep]

def openEvents (db : Db) : ℕ := (inOrder db).countP fun e => unreplicated db e.1

lemma openEvents_lt (hmem : e ∈ window db limit) (hf : followersOf db e.2.masterAccountId ≠ []) :
    openEvents (sweep w limit db) < openEvents db := by
  obtain ⟨hin, hun⟩ := mem_window hmem
  have hsub : ∀ e' ∈ inOrder db, unreplicated (sweep w limit db) e'.1 = true →
      unreplicated db e'.1 = true := by
    intro e' he' hun'
    rw [unreplicated_iff] at hun' ⊢
    intro f
    rw [Bool.eq_false_iff]
    intro hrow
    have hrow' : hasRow (sweep w limit db) e'.1 f = true :=
      (hasRow_sweep he' f).mpr (Or.inl hrow)
    rw [hun' f] at hrow'
    cases hrow'
  rw [openEvents, openEvents, inOrder_sweep]
  have hafter := replicated_of_mem_window (w := w) hmem hf
  obtain ⟨l₁, l₂, hl⟩ := List.append_of_mem hin
  rw [hl] at hsub ⊢
  have h₁ : l₁.countP (fun e' => unreplicated (sweep w limit db) e'.1)
      ≤ l₁.countP fun e' => unreplicated db e'.1 :=
    List.countP_mono_left fun e' he' => hsub e' (List.mem_append_left _ he')
  have h₂ : l₂.countP (fun e' => unreplicated (sweep w limit db) e'.1)
      ≤ l₂.countP fun e' => unreplicated db e'.1 :=
    List.countP_mono_left fun e' he' =>
      hsub e' (List.mem_append_right _ (List.mem_cons_of_mem _ he'))
  simp only [List.countP_append, List.countP_cons, hafter, hun, if_true, Bool.false_eq_true,
    if_false]
  omega

lemma exists_taken (h : NobodyStarves limit db) (he : e ∈ missing db) :
    ∃ e' ∈ window db limit, followersOf db e'.2.masterAccountId ≠ [] := by
  obtain ⟨hin, hneeds⟩ := mem_missing.mp he
  obtain ⟨hun, hbefore⟩ := h e he
  by_cases hmem : e ∈ window db limit
  · exact ⟨e, hmem, followersOf_ne_nil_of_needs hneeds⟩
  · -- the window is full of events before `e`, and not all of these are stuck
    have hfar : limit ≤ ahead db e := by
      by_contra hlt
      exact hmem ((mem_window_iff hin).mpr ⟨hun, not_le.mp hlt⟩)
    have hwindow := take_filter_eq (l := inOrder db) (a := e) limit hfar
    by_contra hnone
    push Not at hnone
    have hstuck : ∀ e' ∈ window db limit, stuck db e' = true := by
      intro e' he'
      rw [stuck, (mem_window he').2, hnone e' he']
      rfl
    have hcount : (window db limit).countP (stuck db) = (window db limit).length :=
      List.countP_eq_length.mpr hstuck
    have hlen : (window db limit).length = limit := by
      rw [window, hwindow, List.length_take, ← List.countP_eq_length_filter]
      exact min_eq_left hfar
    have hsub : (window db limit).Sublist ((inOrder db).takeWhile (· ≠ e)) := by
      rw [window, hwindow]
      exact (List.take_sublist _ _).trans List.filter_sublist
    have hle : (window db limit).countP (stuck db) ≤ stuckBefore db e :=
      hsub.countP_le
    omega

/-- **Sweeps that follow each other** leave no enabled follower out exactly if nobody starves. -/
theorem eventuallyAll_iff_nobodyStarves (w : Facts) (limit : ℕ) (db : Db) :
    EventuallyAll w limit db ↔ NobodyStarves limit db := by
  constructor
  · rintro ⟨n, hn⟩ e he
    by_contra hno
    have hhopeless : ∀ n, Hopeless limit ((sweep w limit)^[n] db) e := by
      intro n
      induction n with
      | zero => exact ⟨he, hno⟩
      | succ n ih =>
        rw [Function.iterate_succ_apply']
        exact hopeless_sweep ih
    have hmem := (hhopeless n).1
    rw [hn] at hmem
    cases hmem
  · -- every sweep gives some event its rows, so that fewer and fewer events are without
    intro h
    induction hμ : openEvents db using Nat.strong_induction_on generalizing db with
    | _ μ ih =>
      cases hmissing : missing db with
      | nil => exact ⟨0, hmissing⟩
      | cons e rest =>
        have he : e ∈ missing db := by
          rw [hmissing]
          exact List.mem_cons_self
        obtain ⟨e', he', hf⟩ := exists_taken h he
        have hstarves : NobodyStarves limit (sweep w limit db) := by
          intro e hmem
          obtain ⟨hbefore, hout⟩ := missing_of_sweep hmem
          rw [(sweep_of_not_mem_window (mem_missing.mp hbefore).1 hout).2, stuckBefore_sweep]
          exact h e hbefore
        have hlt : openEvents (sweep w limit db) < μ := by
          rw [← hμ]
          exact openEvents_lt he' hf
        obtain ⟨n, hn⟩ := ih _ hlt _ hstarves rfl
        exact ⟨n + 1, by rwa [Function.iterate_succ_apply]⟩

end Sweeps

/-! ### Runs -/

/-- What changes the rows that the replication reads and writes. -/
inductive Action where
  | recordEvent (k : ℕ) (event : MasterEvent)
  /-- A follower is added under a new key, or its settings are changed. -/
  | configure (f : ℕ) (follower : CopierFollower)
  | sweep (w : Facts) (raises : ℕ → ℕ → Bool) (limit : ℕ)

def step (db : Db) : Action → Db
  | .recordEvent k event => { db with events := db.events.insert k event }
  | .configure f follower =>
    { db with
      followers :=
        if f ∈ db.followers.keys then db.followers.modify f fun _ => follower
        else db.followers.insert f follower }
  | .sweep w raises limit => replicatePending w raises limit db

def init : Db := ⟨Table.empty, Table.empty, []⟩

/-- Events come from masters that have an enabled follower; followers are enabled, and join a master
before its events are swept; no sweep raises an error. -/
def Careful (db : Db) : Action → Prop
  | .recordEvent _ event => ∃ e ∈ followersOf db event.masterAccountId, e.2.enabled = true
  | .configure f follower =>
    follower.enabled = true ∧
      (∀ old, db.followers.get f = some old → old.masterAccountId = follower.masterAccountId) ∧
      ∀ e ∈ inOrder db, e.2.masterAccountId = follower.masterAccountId →
        unreplicated db e.1 = true ∨ hasRow db e.1 f = true
  | .sweep _ raises _ => ∀ k f, raises k f = false

/-- Every event has an enabled follower, and a row of all its followers or of none. -/
structure Served (db : Db) : Prop where
  enabled : ∀ e ∈ inOrder db, ∃ f ∈ followersOf db e.2.masterAccountId, f.2.enabled = true
  whole : ∀ e ∈ inOrder db, unreplicated db e.1 = true ∨
    ∀ f, follows db e.2.masterAccountId f → hasRow db e.1 f = true
  known : ∀ k f, hasRow db k f = true → k ∈ db.events.keys

section Runs

variable {db : Db} {e : ℕ × MasterEvent}

lemma mem_followersOf {m f : ℕ} {follower : CopierFollower} :
    (f, follower) ∈ followersOf db m ↔
      db.followers.get f = some follower ∧ follower.masterAccountId = m := by
  rw [followersOf, Table.mem_filter, decide_eq_true_eq]

lemma get_configure (f : ℕ) (follower : CopierFollower) (j : ℕ) :
    (step db (.configure f follower)).followers.get j
      = if j = f then some follower else db.followers.get j := by
  by_cases hf : f ∈ db.followers.keys
  · obtain ⟨old, hold⟩ : ∃ old, db.followers.get f = some old := by
      rw [← Option.ne_none_iff_exists', Ne, Table.get_eq_none_iff, not_not]
      exact hf
    simp only [step, if_pos hf, Table.get_modify, hold, Option.map_some]
  · simp only [step, if_neg hf, Table.get_insert follower hf]

lemma served_configure (h : Served db) {f : ℕ} {follower : CopierFollower}
    (hcareful : Careful db (.configure f follower)) :
    Served (step db (.configure f follower)) := by
  obtain ⟨henabled, hmaster, hjoins⟩ := hcareful
  refine ⟨fun e he => ?_, fun e he => ?_, h.known⟩
  · obtain ⟨⟨g, other⟩, hg, hgen⟩ := h.enabled e he
    obtain ⟨hget, hm⟩ := mem_followersOf.mp hg
    by_cases hgf : g = f
    · subst hgf
      refine ⟨(g, follower), mem_followersOf.mpr ⟨?_, ?_⟩, henabled⟩
      · rw [get_configure, if_pos rfl]
      · rw [← hmaster other hget]
        exact hm
    · refine ⟨(g, other), mem_followersOf.mpr ⟨?_, hm⟩, hgen⟩
      rw [get_configure, if_neg hgf]
      exact hget
  · rcases h.whole e he with hun | hall
    · exact Or.inl hun
    by_cases hjoin : e.2.masterAccountId = follower.masterAccountId
    · rcases hjoins e he hjoin with hun | hrow
      · exact Or.inl hun
      · refine Or.inr fun g hg => ?_
        obtain ⟨other, hmem⟩ := hg
        obtain ⟨hget, hm⟩ := mem_followersOf.mp hmem
        by_cases hgf : g = f
        · subst hgf
          exact hrow
        · rw [get_configure, if_neg hgf] at hget
          exact hall g ⟨other, mem_followersOf.mpr ⟨hget, hm⟩⟩
    · refine Or.inr fun g hg => ?_
      obtain ⟨other, hmem⟩ := hg
      obtain ⟨hget, hm⟩ := mem_followersOf.mp hmem
      have hgf : g ≠ f := by
        rintro rfl
        rw [get_configure, if_pos rfl, Option.some_inj] at hget
        rw [← hget] at hm
        exact hjoin hm.symm
      rw [get_configure, if_neg hgf] at hget
      exact hall g ⟨other, mem_followersOf.mpr ⟨hget, hm⟩⟩

lemma served_recordEvent (h : Served db) {k : ℕ} {event : MasterEvent}
    (hcareful : Careful db (.recordEvent k event)) : Served (step db (.recordEvent k event)) := by
  by_cases hk : k ∈ db.events.keys
  · have hsame : step db (.recordEvent k event) = db := by
      simp only [step, Table.insert_of_mem event hk]
    rwa [hsame]
  have hmem : ∀ e, e ∈ inOrder (step db (.recordEvent k event)) ↔
      e ∈ inOrder db ∨ e = (k, event) := by
    intro e
    rw [mem_inOrder, mem_inOrder]
    simp only [step, Table.insert_of_not_mem event hk, List.mem_append, List.mem_singleton]
  refine ⟨fun e he => ?_, fun e he => ?_, fun k' f hrow => ?_⟩
  · rcases (hmem e).mp he with he | rfl
    · exact h.enabled e he
    · exact hcareful
  · rcases (hmem e).mp he with he | rfl
    · exact h.whole e he
    · refine Or.inl (unreplicated_iff.mpr fun f => ?_)
      rw [Bool.eq_false_iff]
      exact fun hrow => hk (h.known k f hrow)
  · have hold := h.known k' f hrow
    simp only [step, Table.keys, Table.insert_of_not_mem event hk, List.map_append]
    exact List.mem_append_left _ hold

lemma served_sweep (h : Served db) {w : Facts} {raises : ℕ → ℕ → Bool} {limit : ℕ}
    (hcareful : Careful db (.sweep w raises limit)) :
    Served (step db (.sweep w raises limit)) := by
  have hraises : raises = fun _ _ => false := by
    ext k f
    exact hcareful k f
  have hstep : step db (.sweep w raises limit) = sweep w limit db := by rw [step, hraises, sweep]
  have hkeys : (sweep w limit db).events = db.events :=
    (replicatePending_spec w (fun _ _ => false) limit db).1.events
  rw [hstep]
  refine ⟨fun e he => ?_, fun e he => ?_, fun k f hrow => ?_⟩
  · rw [inOrder_sweep] at he
    rw [followersOf_sweep]
    exact h.enabled e he
  · rw [inOrder_sweep] at he
    have hfollows : ∀ f, follows (sweep w limit db) e.2.masterAccountId f ↔
        follows db e.2.masterAccountId f := by
      intro f
      rw [follows, followersOf_sweep, follows]
    by_cases hmem : e ∈ window db limit
    · refine Or.inr fun f hf => ?_
      exact (hasRow_sweep he f).mpr (Or.inr ⟨hmem, (hfollows f).mp hf⟩)
    · rcases h.whole e he with hun | hall
      · exact Or.inl ((sweep_of_not_mem_window he hmem).2.trans hun)
      · refine Or.inr fun f hf => ?_
        exact (hasRow_sweep he f).mpr (Or.inl (hall f ((hfollows f).mp hf)))
  · rw [hkeys]
    rcases ((replicatePending_spec w (fun _ _ => false) limit db).2 k f).mp hrow with
      hold | ⟨event, hevent, -⟩
    · exact h.known k f hold
    · exact List.mem_map_of_mem (f := Prod.fst) (mem_inOrder.mp (mem_window hevent).1)

lemma served_step (db : Db) (a : Action) (h : Served db) (hcareful : Careful db a) :
    Served (step db a) := by
  cases a with
  | recordEvent k event => exact served_recordEvent h hcareful
  | configure f follower => exact served_configure h hcareful
  | sweep w raises limit => exact served_sweep h hcareful

lemma served_init : Served init :=
  ⟨fun _ he => (nomatch mem_inOrder.mp he), fun _ he => (nomatch mem_inOrder.mp he),
    fun _ _ h => nomatch h⟩

/-- An event without rows is waited for. -/
lemma Served.needs (h : Served db) (he : e ∈ inOrder db) (hun : unreplicated db e.1 = true) :
    needs db e = true := by
  obtain ⟨f, hf, hen⟩ := h.enabled e he
  refine List.any_eq_true.mpr ⟨f, hf, ?_⟩
  rw [hen, unreplicated_iff.mp hun f.1]
  rfl

/-- An event that is waited for has no rows. -/
lemma Served.unreplicated_of_missing (h : Served db) (he : e ∈ missing db) :
    unreplicated db e.1 = true := by
  obtain ⟨hin, hneeds⟩ := mem_missing.mp he
  refine (h.whole e hin).resolve_right fun hall => ?_
  obtain ⟨f, hf, hno⟩ := List.any_eq_true.mp hneeds
  rw [hall f.1 ⟨f.2, hf⟩] at hno
  simp at hno

lemma Served.wellFilled (h : Served db) (limit : ℕ) : WellFilled limit db := by
  by_cases hfull : limit ≤ (inOrder db).countP fun e => unreplicated db e.1
  · exact Or.inr ⟨hfull, fun e he hun _ => h.needs he hun⟩
  · refine Or.inl fun e he => ⟨h.unreplicated_of_missing he, lt_of_le_of_lt ?_ (not_le.mp hfull)⟩
    exact (List.takeWhile_sublist _).countP_le

lemma Served.nobodyStarves (h : Served db) {limit : ℕ} (hlimit : 0 < limit) :
    NobodyStarves limit db := by
  refine fun e he => ⟨h.unreplicated_of_missing he, ?_⟩
  have hzero : stuckBefore db e = 0 := by
    refine List.countP_eq_zero.mpr fun e' he' hstuck => ?_
    obtain ⟨f, hf, -⟩ := h.enabled e' ((List.takeWhile_sublist _).subset he')
    have hempty := List.isEmpty_iff.mp (Bool.and_eq_true_iff.mp hstuck).2
    rw [hempty] at hf
    cases hf
  rwa [hzero]

end Runs

/-- **Progress of the replication.**  A sweep serves as many of the events that an enabled follower
waits for as its limit allows exactly if its window is well filled; the sweeps that follow each other
leave nobody out exactly if nobody starves; and both hold at every state of a careful run. -/
theorem progress_iff (w : Facts) (limit : ℕ) (db : Db) :
    (Progress w limit db ↔ WellFilled limit db) ∧
    (EventuallyAll w limit db ↔ NobodyStarves limit db) ∧
    ∀ as, StepsMeet step Careful init as → db = run step init as → 0 < limit →
      Progress w limit db ∧ EventuallyAll w limit db := by
  refine ⟨progress_iff_wellFilled w limit db, eventuallyAll_iff_nobodyStarves w limit db, ?_⟩
  intro as has hdb hlimit
  have hserved : Served db := by
    rw [hdb]
    exact run_invariant_of_meets served_step served_init has
  constructor
  · exact (progress_iff_wellFilled w limit db).mpr (hserved.wellFilled limit)
  · exact (eventuallyAll_iff_nobodyStarves w limit db).mpr (hserved.nobodyStarves hlimit)

/-! ### Two runs that leave a follower out -/

def sampleFacts : Facts where
  accounts k := ⟨7, toString k, some ⟨"Broker-Demo", .demo⟩, "Broker", true, true, some 1⟩
  symbolMaps := []
  instruments _ _ := none
  masterPosition _ := none

def sampleFollower (master account : ℕ) : CopierFollower where
  masterAccountId := master
  followerAccountId := account
  enabled := true
  sizing := { mode := .multiplier }
  sltpTranslation := .none_
  disablePolicy := .keepManaging

def sampleEvent (master sequence : ℕ) : MasterEvent where
  masterAccountId := master
  sequence := sequence
  eventType := some .open_
  positionTicket := 1000
  symbol := "EURUSD"
  side := "BUY"
  volumeAfter := 1 / 10
  volumeDelta := 1 / 10
  newSl := none
  newTp := none

/-- An error is raised for the second of two followers. -/
def partlyFailed : List Action :=
  [.configure 1 (sampleFollower 1 11), .configure 2 (sampleFollower 1 12),
    .recordEvent 100 (sampleEvent 1 1), .sweep sampleFacts (fun _ f => f = 2) 500]

/-- The first master has no follower. -/
def behindStuck : List Action :=
  [.configure 1 (sampleFollower 2 11), .recordEvent 100 (sampleEvent 1 1),
    .recordEvent 101 (sampleEvent 2 1)]

/-- The event of the failed follower is never taken again, and the event of the followerless master
keeps the window of one event. -/
theorem followers_left_out :
    (let db := run step init partlyFailed
     ¬ Progress sampleFacts 500 db ∧ ¬ EventuallyAll sampleFacts 500 db) ∧
    (let db := run step init behindStuck
     ¬ Progress sampleFacts 1 db ∧ ¬ EventuallyAll sampleFacts 1 db) := by
  simp only [eventuallyAll_iff_nobodyStarves, NobodyStarves, Progress]
  decide +kernel

end Replication
end GuvFX
