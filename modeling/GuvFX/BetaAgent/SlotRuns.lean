/-
# Runs of the slot store

One call at a time holds the lock, and what it still has to execute takes the committed tables to
tables that its operation may leave.  So the committed tables move by whole sections, and everything
about the occupancies follows from what one section can do.
-/
import GuvFX.BetaAgent.SlotMoves

namespace GuvFX
namespace SlotStore

open Runs Checks

variable {s s' : State} {a : Action} {id : ℕ} {op : Op} {stage : Stage} {answer : Answer}
  {todo : List Statement} {k slot g g' : ℤ} {u v uid : String} {now : ℤ}

/-! ### The steps of a call -/

def Stage.locks : Stage → Bool
  | .writing _ _ => true
  | _ => false

def Stage.checking : Stage → Bool
  | .entered | .quarantineRead | .generationRead _ => true
  | _ => false

lemma locks_check (h : stage.checking = true) (db : Db) : (op.check stage db).locks = false := by
  cases stage with
  | ready | writing | done => cases h
  | entered =>
    cases op with
    | assign uid now =>
      simp only [Op.check]
      split <;> rfl
    | releaseAfterTombstone args =>
      simp only [Op.check]
      split
      · rfl
      · split <;> rfl
    | clearQuarantine args =>
      simp only [Op.check]
      split
      · rfl
      · split <;> rfl
    | clearAllocationBlock operatorIdentity evidenceReference =>
      simp only [Op.check]
      split <;> rfl
    | _ => rfl
  | quarantineRead =>
    cases op with
    | releaseAfterTombstone args =>
      simp only [Op.check]
      split <;> rfl
    | clearQuarantine args =>
      simp only [Op.check]
      split <;> rfl
    | _ => rfl
  | generationRead generation =>
    cases op with
    | clearQuarantine args =>
      simp only [Op.check]
      split <;> rfl
    | _ => rfl

/-- What the next step of a call can be. -/
inductive Advances (s : State) (id : ℕ) : State → Prop
  | waits (hidle : ∀ op answer, s.calls id ≠ some ⟨op, .writing [] answer⟩) : Advances s id s
  | checks {op : Op} {stage : Stage} (hcall : s.calls id = some ⟨op, stage⟩)
    (hchecking : stage.checking = true) (hfree : s.lock = none) :
    Advances s id (s.withStage id op (op.check stage s.conn.view))
  | answers {op : Op} {answer : Answer} (hcall : s.calls id = some ⟨op, .ready⟩)
    (hfree : s.lock = none) (hlocked : op.locked s.poolSize s.conn.view = .error answer) :
    Advances s id (s.withStage id op (.done answer))
  | locks {op : Op} {todo : List Statement} {answer : Answer}
    (hcall : s.calls id = some ⟨op, .ready⟩) (hfree : s.lock = none)
    (hlocked : op.locked s.poolSize s.conn.view = .ok (todo, answer)) :
    Advances s id { s.withStage id op (.writing todo answer) with lock := some id }
  | writes {op : Op} {st : Statement} {todo : List Statement} {answer : Answer} {conn : Conn}
    (hcall : s.calls id = some ⟨op, .writing (st :: todo) answer⟩)
    (hexec : s.conn.exec st = some conn) :
    Advances s id { s.withStage id op (.writing todo answer) with conn }
  | abandons {op : Op} {st : Statement} {todo : List Statement} {answer : Answer}
    (hcall : s.calls id = some ⟨op, .writing (st :: todo) answer⟩)
    (hexec : s.conn.exec st = none) : Advances s id (abandon s id op)
  | commits {op : Op} {answer : Answer} (hcall : s.calls id = some ⟨op, .writing [] answer⟩) :
    Advances s id { s.withStage id op (.done answer) with conn := s.conn.commit, lock := none }

lemma advance_spec (s : State) (id : ℕ) : Advances s id (advance s id) := by
  cases hcall : s.calls id with
  | none =>
    have hidle : ∀ op answer, s.calls id ≠ some ⟨op, .writing [] answer⟩ := by simp [hcall]
    simpa only [advance, hcall] using .waits hidle
  | some call =>
    obtain ⟨op, stage⟩ := call
    have hidle : stage.locks = false →
        ∀ op answer, s.calls id ≠ some ⟨op, .writing [] answer⟩ := by
      intro hstage op' answer hwriting
      obtain ⟨-, rfl⟩ := Call.mk.inj (Option.some.inj (hcall.symm.trans hwriting))
      cases hstage
    have hcheck : stage.checking = true →
        advance s id =
          if s.lock = none then s.withStage id op (op.check stage s.conn.view) else s := by
      intro h
      cases stage with
      | ready | writing | done => cases h
      | _ => simp only [advance, hcall]
    cases stage with
    | entered | quarantineRead | generationRead =>
      rw [hcheck rfl]
      by_cases hfree : s.lock = none
      · rw [if_pos hfree]
        exact .checks hcall rfl hfree
      · rw [if_neg hfree]
        exact .waits (hidle rfl)
    | done answer => simpa only [advance, hcall] using .waits (hidle rfl)
    | ready =>
      simp only [advance, hcall]
      by_cases hfree : s.lock = none
      · rw [if_pos hfree, takeLock]
        cases hlocked : op.locked s.poolSize s.conn.view with
        | error answer => exact .answers hcall hfree hlocked
        | ok plan => exact .locks hcall hfree hlocked
      · rw [if_neg hfree]
        exact .waits (hidle rfl)
    | writing todo answer =>
      cases todo with
      | nil => simpa only [advance, hcall] using .commits hcall
      | cons st todo =>
        simp only [advance, hcall]
        cases hexec : s.conn.exec st with
        | none => exact .abandons hcall hexec
        | some conn => exact .writes hcall hexec

lemma calls_withStage_self : (s.withStage id op stage).calls id = some ⟨op, stage⟩ :=
  Function.update_self ..

lemma calls_withStage_of_ne {i : ℕ} (h : i ≠ id) :
    (s.withStage id op stage).calls i = s.calls i := Function.update_of_ne h ..

/-! ### The invariant -/

/-- The call holds the lock and has these statements left. -/
def Writes (s : State) (id : ℕ) (op : Op) (todo : List Statement) : Prop :=
  ∃ answer, s.calls id = some ⟨op, .writing todo answer⟩

structure Inv (s : State) : Prop where
  wf : Wf s.db
  lock : ∀ {id op todo}, Writes s id op todo → s.lock = some id
  /-- Without a holder of the lock nothing is uncommitted. -/
  closed : s.lock = none → s.conn.txn = none
  /-- What the holder has left to execute ends in tables that its operation may leave. -/
  writes : ∀ {id op todo}, Writes s id op todo →
    ∃ c, s.conn.execAll todo = some c ∧ Moves op s.db c.view

lemma Inv.view (hs : Inv s) (hfree : s.lock = none) : s.conn.view = s.db := by
  rw [Conn.view, hs.closed hfree]
  rfl

lemma inv_open (poolSize : PoolSize) {db : Db} (h : Wf db) : Inv (.open poolSize db) where
  wf := h
  lock := fun h => nomatch h.choose_spec
  closed := fun _ => rfl
  writes := fun h => nomatch h.choose_spec

/-- The call that holds the lock, after the call `id` has gone to a stage. -/
lemma writes_withStage {i : ℕ} {op' : Op} (h : Writes (s.withStage id op stage) i op' todo) :
    i = id ∧ stage.locks = true ∨ i ≠ id ∧ Writes s i op' todo := by
  obtain ⟨answer, hcall⟩ := h
  by_cases hi : i = id
  · subst hi
    rw [calls_withStage_self] at hcall
    obtain ⟨-, rfl⟩ := Call.mk.inj (Option.some.inj hcall)
    exact .inl ⟨rfl, rfl⟩
  · rw [calls_withStage_of_ne hi] at hcall
    exact .inr ⟨hi, answer, hcall⟩

lemma Inv.withStage (hs : Inv s) (hstage : stage.locks = false) : Inv (s.withStage id op stage) := by
  refine ⟨hs.wf, fun h => ?_, hs.closed, fun h => ?_⟩
  · rcases writes_withStage h with ⟨-, hlocks⟩ | ⟨-, hw⟩
    · rw [hstage] at hlocks
      cases hlocks
    · exact hs.lock hw
  · rcases writes_withStage h with ⟨-, hlocks⟩ | ⟨-, hw⟩
    · rw [hstage] at hlocks
      cases hlocks
    · exact hs.writes hw

lemma Inv.committed (hs : Inv s) (hcall : s.calls id = some ⟨op, .writing [] answer⟩) :
    Moves op s.db s.conn.view := by
  obtain ⟨c, hc, hmoves⟩ := hs.writes ⟨answer, hcall⟩
  obtain rfl : s.conn = c := Option.some.inj hc
  exact hmoves

lemma Inv.accepted (hs : Inv s) {st : Statement}
    (hcall : s.calls id = some ⟨op, .writing (st :: todo) answer⟩) : s.conn.exec st ≠ none := by
  obtain ⟨c, hc, -⟩ := hs.writes ⟨answer, hcall⟩
  intro hnone
  rw [Conn.execAll, hnone] at hc
  cases hc

lemma Inv.advance (hs : Inv s) (id : ℕ) : Inv (advance s id) := by
  have hspec := advance_spec s id
  generalize SlotStore.advance s id = s' at hspec ⊢
  cases hspec with
  | waits => exact hs
  | checks hcall hchecking hfree => exact hs.withStage (locks_check hchecking _)
  | answers hcall hfree hlocked => exact hs.withStage rfl
  | @locks op todo answer hcall hfree hlocked =>
    have hview := hs.view hfree
    have hconn : s.conn = ⟨s.db, none⟩ := by
      rw [← hs.closed hfree]
      rfl
    rw [hview] at hlocked
    obtain ⟨c, hc, -, hmoves⟩ := locked_spec hs.wf hlocked
    -- nobody else holds the lock
    have hothers : ∀ {i op todo}, ¬ Writes s i op todo := by
      intro i op todo hw
      have hlock := hs.lock hw
      rw [hfree] at hlock
      cases hlock
    refine ⟨hs.wf, ?_, (fun h => by cases h), ?_⟩
    · intro i op' todo' hw
      rcases writes_withStage hw with ⟨rfl, -⟩ | ⟨-, hw⟩
      · rfl
      · exact absurd hw hothers
    · intro i op' todo' hw
      obtain ⟨answer', hcall'⟩ := hw
      rcases writes_withStage ⟨answer', hcall'⟩ with ⟨rfl, -⟩ | ⟨-, hw⟩
      · obtain ⟨rfl, hstage⟩ := Call.mk.inj (Option.some.inj (calls_withStage_self.symm.trans hcall'))
        obtain ⟨rfl, -⟩ := Stage.writing.inj hstage
        refine ⟨c, ?_, hmoves⟩
        exact (congrArg (Conn.execAll · _) hconn).trans hc
      · exact absurd hw hothers
  | @writes op st todo answer conn hcall hexec =>
    have hlock := hs.lock ⟨answer, hcall⟩
    have hdb : conn.committed = s.db := Conn.committed_exec hexec
    obtain ⟨c, hc, hmoves⟩ := hs.writes ⟨answer, hcall⟩
    rw [Conn.execAll, hexec, Option.bind_some] at hc
    -- nobody else holds the lock
    have hothers : ∀ {i op todo}, i ≠ id → ¬ Writes s i op todo := by
      intro i op todo hi hw
      exact hi (Option.some.inj ((hs.lock hw).symm.trans hlock))
    refine ⟨(congrArg Wf hdb).mpr hs.wf, ?_, (fun hnone => by cases hnone.symm.trans hlock), ?_⟩
    · intro i op' todo' hw
      rcases writes_withStage hw with ⟨rfl, -⟩ | ⟨hi, hw⟩
      · exact hlock
      · exact absurd hw (hothers hi)
    · intro i op' todo' hw
      obtain ⟨answer', hcall'⟩ := hw
      rcases writes_withStage ⟨answer', hcall'⟩ with ⟨rfl, -⟩ | ⟨hi, hw⟩
      · obtain ⟨rfl, hstage⟩ := Call.mk.inj (Option.some.inj (calls_withStage_self.symm.trans hcall'))
        obtain ⟨rfl, -⟩ := Stage.writing.inj hstage
        exact ⟨c, hc, (congrArg (Moves op · c.view) hdb).mpr hmoves⟩
      · exact absurd hw (hothers hi)
  | abandons hcall hexec => exact absurd hexec (hs.accepted hcall)
  | @commits op answer hcall =>
    have hlock := hs.lock ⟨answer, hcall⟩
    have hmoves := hs.committed hcall
    have hothers : ∀ {i op todo}, i ≠ id → ¬ Writes s i op todo := by
      intro i op todo hi hw
      exact hi (Option.some.inj ((hs.lock hw).symm.trans hlock))
    refine ⟨hmoves.wf hs.wf, ?_, fun _ => rfl, ?_⟩
    · intro i op' todo' hw
      rcases writes_withStage hw with ⟨-, hlocks⟩ | ⟨hi, hw⟩
      · cases hlocks
      · exact absurd hw (hothers hi)
    · intro i op' todo' hw
      rcases writes_withStage hw with ⟨-, hlocks⟩ | ⟨hi, hw⟩
      · cases hlocks
      · exact absurd hw (hothers hi)

lemma locks_firstStage (op : Op) : op.firstStage.locks = false := by
  cases op <;> rfl

lemma inv_step (hs : Inv s) (a : Action) : Inv (step s a) := by
  cases a with
  | call id op =>
    rw [step]
    by_cases hnew : s.calls id = none
    · rw [if_pos hnew]
      exact hs.withStage (locks_firstStage op)
    · rwa [if_neg hnew]
  | advance id => exact hs.advance id
  | crash poolSize => exact inv_open poolSize hs.wf

lemma inv_run (poolSize : PoolSize) (as : List Action) : Inv (run step (.initial poolSize) as) :=
  run_invariant (P := Inv) (fun _ a hs => inv_step hs a) (inv_open poolSize wf_initial) as

/-! ### What one step does to the committed tables -/

/-- The step commits the locked section of this operation. -/
def Commits (s : State) (a : Action) (op : Op) : Prop :=
  ∃ id answer, a = .advance id ∧ s.calls id = some ⟨op, .writing [] answer⟩

/-- The committed tables change by the committed sections only. -/
lemma db_step (hs : Inv s) (a : Action) :
    (step s a).db = s.db ∧ (∀ op, ¬ Commits s a op) ∨
      ∃ op, Commits s a op ∧ Moves op s.db (step s a).db := by
  cases a with
  | call id op =>
    refine .inl ⟨?_, ?_⟩
    · rw [step]
      split <;> rfl
    · rintro op ⟨id, answer, ha, -⟩
      cases ha
  | crash poolSize =>
    refine .inl ⟨rfl, ?_⟩
    rintro op ⟨id, answer, ha, -⟩
    cases ha
  | advance id =>
    -- a step of a call that has not come to its commit
    have hno : ∀ {stage op₀}, s.calls id = some ⟨op₀, stage⟩ →
        (∀ answer, stage ≠ .writing [] answer) → ∀ op, ¬ Commits s (.advance id) op := by
      rintro stage op₀ hcall hstage op ⟨id', answer, ha, hcall'⟩
      obtain rfl := Action.advance.inj ha
      exact hstage answer (Call.mk.inj (Option.some.inj (hcall.symm.trans hcall'))).2
    have hspec := advance_spec s id
    rw [step]
    generalize advance s id = s' at hspec ⊢
    cases hspec with
    | waits hidle =>
      refine .inl ⟨rfl, ?_⟩
      rintro op ⟨id', answer, ha, hcall⟩
      obtain rfl := Action.advance.inj ha
      exact hidle op answer hcall
    | checks hcall hchecking =>
      refine .inl ⟨rfl, hno hcall ?_⟩
      rintro answer rfl
      cases hchecking
    | answers hcall => exact .inl ⟨rfl, hno hcall nofun⟩
    | locks hcall => exact .inl ⟨rfl, hno hcall nofun⟩
    | writes hcall hexec => exact .inl ⟨Conn.committed_exec hexec, hno hcall nofun⟩
    | abandons hcall hexec => exact absurd hexec (hs.accepted hcall)
    | @commits op answer hcall =>
      exact .inr ⟨op, ⟨id, answer, rfl, hcall⟩, hs.committed hcall⟩

/-! ### Generations -/

def Releases (s : State) (a : Action) (slot : ℤ) : Prop :=
  ∃ op uid, Commits s a op ∧ op.releases = some uid ∧ s.db.occupant slot = some uid

lemma Commits.unique {op' : Op} (h : Commits s a op) (h' : Commits s a op') : op = op' := by
  obtain ⟨id, answer, rfl, hcall⟩ := h
  obtain ⟨id', answer', ha, hcall'⟩ := h'
  obtain rfl := Action.advance.inj ha
  exact (Call.mk.inj (Option.some.inj (hcall.symm.trans hcall'))).1

lemma generation_step (hs : Inv s) (a : Action) (hg : s.db.generationOf slot = some g) :
    (Releases s a slot → (step s a).db.generationOf slot = some (g + 1)) ∧
      (¬ Releases s a slot → (step s a).db.generationOf slot = some g) := by
  rcases db_step hs a with ⟨hsame, hno⟩ | ⟨op, hcommits, hmoves⟩
  · rw [hsame]
    exact ⟨fun ⟨op, uid, hcommits, _⟩ => absurd hcommits (hno op), fun _ => hg⟩
  have hop : ∀ {op' : Op} {uid : String}, Commits s a op' → op'.releases = some uid →
      op.releases = some uid := by
    intro op' uid hcommits' hreleases
    rw [hcommits.unique hcommits', hreleases]
  cases hmoves with
  | @took _ _ uid now slot' g' h =>
    refine ⟨?_, fun _ => ?_⟩
    · rintro ⟨op', uid', hcommits', hreleases, -⟩
      cases hop hcommits' hreleases
    · by_cases hslot : slot = slot'
      · subst hslot
        have hold := h.generation
        rw [hg, Option.getD_some] at hold
        rw [h.holds.2, hold]
      · rw [Db.generationOf, h.others slot hslot]
        exact hg
  | @freed _ _ _ uid slot' g' hreleases h =>
    by_cases hslot : slot = slot'
    · subst hslot
      obtain rfl : g = g' := Option.some.inj (hg.symm.trans h.holds.2)
      refine ⟨fun _ => h.generation, fun hnot => ?_⟩
      exact absurd ⟨op, uid, hcommits, hreleases, h.holds.1⟩ hnot
    · refine ⟨?_, fun _ => ?_⟩
      · rintro ⟨op', uid', hcommits', hreleases', hocc⟩
        obtain rfl : uid = uid' :=
          Option.some.inj (hreleases.symm.trans (hop hcommits' hreleases'))
        exact absurd (hs.wf.one_slot hocc h.holds.1) hslot
      · rw [Db.generationOf, h.others slot hslot]
        exact hg
  | kept hreleases h hmarks =>
    refine ⟨?_, fun _ => ?_⟩
    · rintro ⟨op', uid', hcommits', hreleases', -⟩
      cases hreleases.symm.trans (hop hcommits' hreleases')
    · rw [h.generationOf, hg]

lemma holds_step (hs : Inv s) (a : Action) (h : Holds s.db u slot g) :
    Holds (step s a).db u slot g ∨ (step s a).db.generationOf slot = some (g + 1) := by
  obtain ⟨hocc, hg⟩ := h
  rcases db_step hs a with ⟨hsame, -⟩ | ⟨op, hcommits, hmoves⟩
  · exact .inl (hsame ▸ ⟨hocc, hg⟩)
  cases hmoves with
  | @took _ _ uid now slot' g' h =>
    have hslot : slot ≠ slot' := by
      rintro rfl
      rw [h.free] at hocc
      cases hocc
    refine .inl ⟨?_, ?_⟩
    · rwa [Db.occupant, h.others slot hslot]
    · rwa [Db.generationOf, h.others slot hslot]
  | @freed _ _ _ uid slot' g' hreleases h =>
    by_cases hslot : slot = slot'
    · subst hslot
      obtain rfl : g = g' := Option.some.inj (hg.symm.trans h.holds.2)
      exact .inr h.generation
    · refine .inl ⟨?_, ?_⟩
      · rwa [Db.occupant, h.others slot hslot]
      · rwa [Db.generationOf, h.others slot hslot]
  | kept hreleases h hmarks => exact .inl ⟨by rw [h.occupant, hocc], by rw [h.generationOf, hg]⟩

structure Later (s s' : State) : Prop where
  generation : ∀ {slot g}, s.db.generationOf slot = some g →
    ∃ g', s'.db.generationOf slot = some g' ∧ g ≤ g'
  holds : ∀ {u slot g}, Holds s.db u slot g → Holds s'.db u slot g ∨
    ∃ g', s'.db.generationOf slot = some g' ∧ g < g'

instance : Std.Refl Later := ⟨fun _ => ⟨fun h => ⟨_, h, Int.le_refl _⟩, .inl⟩⟩

instance : IsTrans State Later where
  trans s₁ s₂ s₃ h₁ h₂ := by
    refine ⟨?_, ?_⟩
    · intro slot g hg
      obtain ⟨g', hg', hle⟩ := h₁.generation hg
      obtain ⟨g'', hg'', hle'⟩ := h₂.generation hg'
      exact ⟨g'', hg'', by omega⟩
    · intro u slot g h
      rcases h₁.holds h with h | ⟨g', hg', hlt⟩
      · exact h₂.holds h
      · obtain ⟨g'', hg'', hle⟩ := h₂.generation hg'
        exact .inr ⟨g'', hg'', by omega⟩

lemma later_step (hs : Inv s) (a : Action) : Later s (step s a) where
  generation := by
    intro slot g hg
    have hstep := generation_step hs a hg
    by_cases h : Releases s a slot
    · exact ⟨g + 1, hstep.1 h, by omega⟩
    · exact ⟨g, hstep.2 h, Int.le_refl g⟩
  holds := by
    intro u slot g h
    rcases holds_step hs a h with h | h
    · exact .inl h
    · exact .inr ⟨g + 1, h, by omega⟩

lemma later_run (hs : Inv s) (as : List Action) : Later s (run step s as) :=
  run_rel (P := Inv) (fun _ a hs => inv_step hs a) (fun _ a hs => later_step hs a) hs as

lemma holder_unique (hs : Inv s) (as : List Action) (hu : Holds s.db u slot g)
    (hv : Holds (run step s as).db v slot g) : u = v := by
  rcases (later_run hs as).holds hu with hu' | ⟨g', hg', hlt⟩
  · exact Option.some.inj (hu'.1.symm.trans hv.1)
  · obtain rfl : g = g' := Option.some.inj (hv.2.symm.trans hg')
    omega

/-! ### Assignments to a runtime that has a slot -/

lemma slotOf_of_holds (hdb : Wf s.db) (h : Holds s.db uid slot g) :
    ∃ row, s.db.slotOf uid = some row ∧ row.slot = slot ∧ row.generation = g := by
  cases hrow : s.db.slotOf uid with
  | none => exact absurd h.1 (slotOf_eq_none_iff.mp hrow slot)
  | some row =>
    have hholds := holds_of_slotOf hrow
    have hslot := hdb.one_slot hholds.1 h.1
    rw [hslot] at hholds
    exact ⟨row, rfl, hslot, Option.some.inj (hholds.2.symm.trans h.2)⟩

lemma assign_admitted (hs : Inv s) (hcall : s.calls id = some ⟨.assign uid now, .entered⟩)
    (hfree : s.lock = none) (hblock : s.db.allocationBlock = none) :
    (step s (.advance id)).calls id = some ⟨.assign uid now, .ready⟩ := by
  rw [step, advance, hcall]
  simp only [if_pos hfree, Op.check, hs.view hfree, hblock]
  exact calls_withStage_self

lemma assign_again (hs : Inv s) (hcall : s.calls id = some ⟨.assign uid now, .ready⟩)
    (hfree : s.lock = none) (hholds : Holds s.db uid slot g) :
    (step s (.advance id)).calls id = some ⟨.assign uid now, .done (.assigned slot g)⟩ ∧
      (step s (.advance id)).db = s.db := by
  obtain ⟨row, hrow, rfl, rfl⟩ := slotOf_of_holds hs.wf hholds
  have hlocked : (Op.assign uid now).locked s.poolSize s.conn.view =
      .error (.assigned row.slot row.generation) := by
    rw [hs.view hfree]
    simp only [Op.locked, hrow]
  rw [step, advance, hcall]
  simp only [if_pos hfree, takeLock, hlocked]
  exact ⟨calls_withStage_self, rfl⟩

/-! ### The allocation block -/

def NoBlock : Action → Prop
  | .call _ (.blockAllocation _ _) => False
  | _ => True

/-- Nobody blocks, and nobody is about to. -/
structure Unblocked (s : State) : Prop where
  block : s.db.allocationBlock = none
  calls : ∀ {id op stage}, s.calls id = some ⟨op, stage⟩ → ∀ reason now, op ≠ .blockAllocation reason now

lemma op_advance {i : ℕ} (h : (advance s id).calls i = some ⟨op, stage⟩) :
    ∃ stage', s.calls i = some ⟨op, stage'⟩ := by
  -- the call `id` has gone to a stage with its own operation
  have hmoved : ∀ {op' stage₀ stage'}, s.calls id = some ⟨op', stage₀⟩ →
      (s.withStage id op' stage').calls i = some ⟨op, stage⟩ → ∃ st, s.calls i = some ⟨op, st⟩ := by
    intro op' stage₀ stage' hcall h
    by_cases hi : i = id
    · subst hi
      rw [calls_withStage_self] at h
      obtain ⟨rfl, -⟩ := Call.mk.inj (Option.some.inj h)
      exact ⟨stage₀, hcall⟩
    · rw [calls_withStage_of_ne hi] at h
      exact ⟨stage, h⟩
  have hspec := advance_spec s id
  generalize SlotStore.advance s id = s' at hspec h
  cases hspec with
  | waits => exact ⟨stage, h⟩
  | checks hcall => exact hmoved hcall h
  | answers hcall => exact hmoved hcall h
  | locks hcall => exact hmoved hcall h
  | writes hcall => exact hmoved hcall h
  | abandons hcall => exact hmoved hcall h
  | commits hcall => exact hmoved hcall h

lemma unblocked_step (hs : Inv s) (hfree : Unblocked s) (ha : NoBlock a) : Unblocked (step s a) := by
  refine ⟨?_, ?_⟩
  · rcases db_step hs a with ⟨hsame, -⟩ | ⟨op, ⟨id, answer, rfl, hcall⟩, hmoves⟩
    · rw [hsame, hfree.block]
    cases hmoves with
    | took h => rw [h.block, hfree.block]
    | freed hop h => rw [h.block, hfree.block]
    | kept hop h hmarks =>
      rcases hmarks.block with ⟨reason, now, hop⟩ | hblock
      · exact absurd hop (hfree.calls hcall reason now)
      · exact hblock hfree.block
  · intro id op stage hcall reason now hop
    cases a with
    | call i op' =>
      rw [step] at hcall
      split at hcall
      · by_cases hi : id = i
        · subst hi
          rw [calls_withStage_self] at hcall
          obtain ⟨rfl, -⟩ := Call.mk.inj (Option.some.inj hcall)
          subst hop
          exact ha
        · rw [calls_withStage_of_ne hi] at hcall
          exact hfree.calls hcall reason now hop
      · exact hfree.calls hcall reason now hop
    | advance i =>
      obtain ⟨stage', hcall'⟩ := op_advance hcall
      exact hfree.calls hcall' reason now hop
    | crash poolSize => cases hcall

lemma unblocked_run (poolSize : PoolSize) {as : List Action} (has : ∀ a ∈ as, NoBlock a) :
    Unblocked (run step (.initial poolSize) as) := by
  have hboth : Inv (run step (.initial poolSize) as) ∧ Unblocked (run step (.initial poolSize) as) :=
    run_invariant_of_meets (P := fun s => Inv s ∧ Unblocked s) (C := fun _ a => NoBlock a)
      (fun s a hs ha => ⟨inv_step hs.1 a, unblocked_step hs.1 hs.2 ha⟩)
      ⟨inv_open poolSize wf_initial, rfl, fun h => nomatch h⟩ (stepsMeet_of_forall_mem has)
  exact hboth.2

/-! ### The occupancies of a run -/

/-- What the occupancies of the slots are like after a run, and what the next step does to them. -/
structure Occupancies (poolSize : PoolSize) (as : List Action) : Prop where
  /-- Two runtimes never have the same occupancy, at whatever times. -/
  one_runtime : ∀ pre pre' slot g u v, pre <+: as → pre' <+: as →
    Holds (run step (.initial poolSize) pre).db u slot g →
    Holds (run step (.initial poolSize) pre').db v slot g → u = v
  one_slot : ∀ u slot g slot' g', Holds (run step (.initial poolSize) as).db u slot g →
    Holds (run step (.initial poolSize) as).db u slot' g' → slot = slot'
  ledger : ∀ slot g, (run step (.initial poolSize) as).db.generationOf slot = some g →
    1 ≤ g ∧ (run step (.initial poolSize) as).db.ledger slot = generationSeq g.toNat
  ledger_unused : ∀ slot, (run step (.initial poolSize) as).db.generationOf slot = none →
    (run step (.initial poolSize) as).db.ledger slot = []
  /-- The generation advances by one on a release, and on nothing else. -/
  generation : ∀ a slot g, (run step (.initial poolSize) as).db.generationOf slot = some g →
    (Releases (run step (.initial poolSize) as) a slot →
      (run step (.initial poolSize) (as ++ [a])).db.generationOf slot = some (g + 1)) ∧
    (¬ Releases (run step (.initial poolSize) as) a slot →
      (run step (.initial poolSize) (as ++ [a])).db.generationOf slot = some g)
  /-- An assignment goes on to its locked section as long as nobody has blocked all allocation. -/
  assign_admitted : (∀ a ∈ as, NoBlock a) → ∀ id uid now,
    (run step (.initial poolSize) as).calls id = some ⟨.assign uid now, .entered⟩ →
    (run step (.initial poolSize) as).lock = none →
    (run step (.initial poolSize) (as ++ [.advance id])).calls id = some ⟨.assign uid now, .ready⟩
  /-- There it answers a runtime that has a slot with that slot, and writes nothing. -/
  assign_again : ∀ id uid now slot g,
    (run step (.initial poolSize) as).calls id = some ⟨.assign uid now, .ready⟩ →
    (run step (.initial poolSize) as).lock = none →
    Holds (run step (.initial poolSize) as).db uid slot g →
    (run step (.initial poolSize) (as ++ [.advance id])).calls id =
        some ⟨.assign uid now, .done (.assigned slot g)⟩ ∧
      (run step (.initial poolSize) (as ++ [.advance id])).db =
        (run step (.initial poolSize) as).db

/-- In every run of the store the occupancies are unambiguous and the ledger is exact. -/
theorem occupancies (poolSize : PoolSize) (as : List Action) : Occupancies poolSize as := by
  have hs := inv_run poolSize as
  refine ⟨?_, ?_, ?_, ?_, ?_, ?_, ?_⟩
  · intro pre pre' slot g u v hpre hpre' hu hv
    rcases List.prefix_or_prefix_of_prefix hpre hpre' with ⟨mid, rfl⟩ | ⟨mid, rfl⟩
    · rw [run_append] at hv
      exact holder_unique (inv_run poolSize pre) mid hu hv
    · rw [run_append] at hu
      exact (holder_unique (inv_run poolSize pre') mid hv hu).symm
  · exact fun u slot g slot' g' h h' => hs.wf.one_slot h.1 h'.1
  · exact fun slot g hg => hs.wf.ledger hg
  · exact fun slot hnone => hs.wf.unused hnone
  · intro a slot g hg
    rw [run_concat]
    exact generation_step hs a hg
  · intro has id uid now hcall hfree
    rw [run_concat]
    exact assign_admitted hs hcall hfree (unblocked_run poolSize has).block
  · intro id uid now slot g hcall hfree hholds
    rw [run_concat]
    exact assign_again hs hcall hfree hholds

end SlotStore
end GuvFX
