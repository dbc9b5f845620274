/-
# Quarantined slots

A slot that has failed an assertion is marked, and should neither be handed out nor released until an
operator has cleared it.  The locked sections do not look at the marks: an assignment takes the lowest
free slot, the plain release frees whatever its runtime has, and the release after a tombstone has
looked before it takes the lock.

So the marks hold in the runs in which the lowest free slot is not marked when an assignment needs
one, the slot of a runtime is not marked when it is released plainly, and no slot is marked while a
release after a tombstone that is still good for it is past its look.
-/
import GuvFX.BetaAgent.SlotRuns

namespace GuvFX
namespace SlotStore

open Runs Checks

variable {s s' : State} {a : Action} {id i : ℕ} {op : Op} {stage : Stage} {answer : Answer}
  {todo : List Statement} {k slot g : ℤ} {u uid : String} {now : ℤ} {db db' : Db}

/-! ### What a statement leaves alone -/

def Statement.writesSlot : Statement → Option ℤ
  | .occupy slot _ _ => some slot
  | .insertSlot row => some row.slot
  | .vacate slot _ => some slot
  | _ => none

lemma exec_frame {st : Statement} (h : db.exec st = some db') (hslot : st.writesSlot ≠ some k) :
    db'.slots.get k = db.slots.get k := by
  cases st with
  | occupy slot uid now =>
    simp only [Db.exec] at h
    split at h
    · cases h
    · obtain rfl := Option.some.inj h
      rw [get_occupy, if_neg (fun hk => hslot (congrArg some hk.symm))]
  | insertSlot row =>
    simp only [Db.exec] at h
    split at h
    · cases h
    · obtain ⟨slots, hslots, rfl⟩ := Option.map_eq_some_iff.mp h
      exact (Rows.get_of_insert hslots k).trans (if_neg fun hk => hslot (congrArg some hk))
  | vacate slot generation =>
    obtain rfl := Option.some.inj h
    rw [get_vacate, if_neg (fun hk => hslot (congrArg some hk.symm))]
  | insertGeneration row =>
    obtain ⟨log, -, rfl⟩ := Option.map_eq_some_iff.mp h
    rfl
  | _ =>
    obtain rfl := Option.some.inj h
    rfl

lemma Conn.exec_frame {c c' : Conn} {st : Statement} (h : c.exec st = some c')
    (hslot : st.writesSlot ≠ some k) : c'.view.occupant k = c.view.occupant k := by
  unfold Conn.exec at h
  split at h
  · cases h
  · obtain ⟨db', hdb', rfl⟩ := Option.map_eq_some_iff.mp h
    exact congrArg (Option.bind · _) (SlotStore.exec_frame hdb' hslot)

/-- The slot that the locked section of an operation writes. -/
def Op.target (op : Op) (poolSize : ℕ) (db : Db) : Option ℤ :=
  match op with
  | .assign uid _ => if db.slotOf uid = none then db.lowestFree poolSize else none
  | .release uid _ => (db.slotOf uid).map (·.slot)
  | .releaseAfterTombstone args =>
    (db.slotOf args.runtimeUuid).bind fun row =>
      if row.slot = args.slot ∧ row.generation = args.generation then some args.slot else none
  | _ => none

lemma locked_target {n : ℕ} (h : op.locked n db = .ok (todo, answer)) {st : Statement}
    (hst : st ∈ todo) (hslot : st.writesSlot = some k) : op.target n db = some k := by
  cases op with
  | lookup uid => cases h
  | assign uid now =>
    simp only [Op.locked] at h
    cases hunheld : db.slotOf uid with
    | some row => rw [hunheld] at h; cases h
    | none =>
    rw [Op.target, if_pos hunheld]
    cases hfree : db.lowestFree n with
    | none => rw [hunheld, hfree] at h; cases h
    | some slot =>
    rw [← hslot]
    cases hrow : db.slots.get slot with
    | some row =>
      simp only [hunheld, hfree, hrow, Except.ok.injEq, Prod.mk.injEq] at h
      obtain ⟨rfl, -⟩ := h
      obtain rfl := List.mem_singleton.mp hst
      rfl
    | none =>
      simp only [hunheld, hfree, hrow, Except.ok.injEq, Prod.mk.injEq] at h
      obtain ⟨rfl, -⟩ := h
      rcases List.mem_cons.mp hst with rfl | hst
      · rfl
      · obtain rfl := List.mem_singleton.mp hst
        cases hslot
  | release uid now =>
    simp only [Op.locked] at h
    cases hheld : db.slotOf uid with
    | none => rw [hheld] at h; cases h
    | some row =>
      simp only [hheld, Except.ok.injEq, Prod.mk.injEq] at h
      obtain ⟨rfl, -⟩ := h
      rw [Op.target, hheld, ← hslot]
      rcases List.mem_cons.mp hst with rfl | hst
      · rfl
      · obtain rfl := List.mem_singleton.mp hst
        cases hslot
  | releaseAfterTombstone args =>
    simp only [Op.locked] at h
    cases hheld : db.slotOf args.runtimeUuid with
    | none => rw [hheld] at h; cases h
    | some row =>
      simp only [hheld] at h
      split at h
      · cases h
      rename_i hagree
      have hagree : row.slot = args.slot ∧ row.generation = args.generation :=
        ⟨not_not.mp (not_or.mp hagree).1, not_not.mp (not_or.mp hagree).2⟩
      simp only [Except.ok.injEq, Prod.mk.injEq] at h
      obtain ⟨rfl, -⟩ := h
      rw [Op.target, hheld, Option.bind_some, if_pos hagree, ← hslot]
      rcases List.mem_cons.mp hst with rfl | hst
      · cases hslot
      · rcases List.mem_cons.mp hst with rfl | hst
        · rfl
        · obtain rfl := List.mem_singleton.mp hst
          cases hslot
  | quarantineSlot | clearQuarantine | blockAllocation | clearAllocationBlock =>
    simp only [Op.locked, Except.ok.injEq, Prod.mk.injEq] at h
    obtain ⟨rfl, -⟩ := h
    obtain rfl := List.mem_singleton.mp hst
    cases hslot

/-! ### The condition -/

/-- The call is a release after a tombstone that has found the slot without a mark, and whose view
of the slot is that of the tables. -/
def Releasing (s : State) (id : ℕ) (slot : ℤ) : Prop :=
  ∃ args stage, s.calls id = some ⟨.releaseAfterTombstone args, stage⟩ ∧
    (stage = .quarantineRead ∨ stage = .ready) ∧ args.slot = slot ∧
    Holds s.db args.runtimeUuid slot args.generation

/-- An assignment does not need a marked slot, a plain release is not for one, and a slot is not
marked while one of the first `n` calls is a release after a tombstone on its way. -/
def CarefulUpTo (n : ℕ) (s : State) : Action → Prop
  | .advance id =>
    match s.calls id with
    | some ⟨.assign uid _, .ready⟩ => s.lock = none → s.db.slotOf uid = none →
      ∀ slot ∈ s.db.lowestFree s.poolSize, s.db.isQuarantined slot = false
    | some ⟨.release uid _, .ready⟩ => s.lock = none →
      ∀ row ∈ s.db.slotOf uid, s.db.isQuarantined row.slot = false
    | some ⟨.quarantineSlot slot _ _, .writing [] _⟩ => ∀ i < n, ¬ Releasing s i slot
    | _ => True
  | _ => True

/-- The condition on a step, whatever the number of the calls. -/
def Careful (s : State) (a : Action) : Prop := ∀ n, CarefulUpTo n s a

/-- Marked slots are in no danger. -/
structure Guarded (s : State) : Prop where
  /-- The statements that are left do not write a marked slot. -/
  todo : ∀ {id op todo}, Writes s id op todo → ∀ st ∈ todo, ∀ k, st.writesSlot = some k →
    s.db.isQuarantined k = false
  /-- Nor have those that have been executed. -/
  view : ∀ {k}, s.db.isQuarantined k = true → s.conn.view.occupant k = s.db.occupant k
  releasing : ∀ {id k}, Releasing s id k → s.db.isQuarantined k = false

lemma not_releasing (hcall : s.calls id = some ⟨op, stage⟩) (hread : stage ≠ .quarantineRead)
    (hready : stage ≠ .ready) : ¬ Releasing s id k := by
  rintro ⟨args, stage', hcall', hstage, -⟩
  obtain ⟨-, rfl⟩ := Call.mk.inj (Option.some.inj (hcall.symm.trans hcall'))
  exact hstage.elim hread hready

lemma guarded_open (poolSize : PoolSize) (db : Db) : Guarded (.open poolSize db) where
  todo := fun h => nomatch h.choose_spec
  view := fun _ => rfl
  releasing := fun ⟨_, _, hcall, _⟩ => nomatch hcall

/-- Another call is where it was. -/
lemma releasing_withStage (h : Releasing (s.withStage id op stage) i k) (hi : i ≠ id) :
    Releasing s i k := by
  obtain ⟨args, stage', hcall, hrest⟩ := h
  exact ⟨args, stage', calls_withStage_of_ne hi ▸ hcall, hrest⟩

lemma Guarded.withStage (hg : Guarded s) (hstage : stage.locks = false)
    (hself : ∀ k, Releasing (s.withStage id op stage) id k → s.db.isQuarantined k = false) :
    Guarded (s.withStage id op stage) := by
  refine ⟨fun h => ?_, hg.view, fun {i k} h => ?_⟩
  · rcases writes_withStage h with ⟨-, hlocks⟩ | ⟨-, hw⟩
    · rw [hstage] at hlocks
      cases hlocks
    · exact hg.todo hw
  · by_cases hi : i = id
    · exact hself k (hi ▸ h)
    · exact hg.releasing (releasing_withStage h hi)

/-- A release after a tombstone has looked at the mark of its slot, and nobody has set one since. -/
lemma Guarded.checked (hs : Inv s) (hg : Guarded s) (hcall : s.calls id = some ⟨op, stage⟩)
    (hchecking : stage.checking = true) (hfree : s.lock = none)
    (h : Releasing (s.withStage id op (op.check stage s.conn.view)) id k) :
    s.db.isQuarantined k = false := by
  obtain ⟨args, stage', hcall', hstage', hslot, hholds⟩ := h
  rw [calls_withStage_self] at hcall'
  obtain ⟨rfl, rfl⟩ := Call.mk.inj (Option.some.inj hcall')
  cases stage with
  | ready | writing | done => cases hchecking
  | generationRead generation =>
    simp only [Op.check] at hstage'
    rcases hstage' with h | h <;> cases h
  | quarantineRead => exact hg.releasing ⟨args, _, hcall, .inl rfl, hslot, hholds⟩
  | entered =>
    cases hmark : s.db.isQuarantined k with
    | false => rfl
    | true =>
      have hmark' : s.conn.view.isQuarantined args.slot = true := by
        rw [hs.view hfree, hslot, hmark]
      simp only [Op.check, hmark', if_true] at hstage'
      split at hstage'
      · rcases hstage' with h | h <;> cases h
      · rcases hstage' with h | h <;> cases h

lemma Guarded.target (hg : Guarded s) (hcall : s.calls id = some ⟨op, .ready⟩)
    (hfree : s.lock = none) (ha : Careful s (.advance id))
    (h : op.target s.poolSize s.db = some k) : s.db.isQuarantined k = false := by
  cases op with
  | assign uid now =>
    rw [Op.target] at h
    split at h
    · have hcareful := ha 0
      simp only [CarefulUpTo, hcall] at hcareful
      exact hcareful hfree ‹_› k h
    · cases h
  | release uid now =>
    obtain ⟨row, hrow, rfl⟩ := Option.map_eq_some_iff.mp h
    have hcareful := ha 0
    simp only [CarefulUpTo, hcall] at hcareful
    exact hcareful hfree row hrow
  | releaseAfterTombstone args =>
    obtain ⟨row, hrow, hagree⟩ := Option.bind_eq_some_iff.mp h
    split at hagree
    · rename_i hsame
      obtain rfl := Option.some.inj hagree
      have hholds := holds_of_slotOf hrow
      rw [hsame.1, hsame.2] at hholds
      exact hg.releasing ⟨args, .ready, hcall, .inr rfl, rfl, hholds⟩
    · cases hagree
  | _ => cases h

/-- A commit marks no slot for which a release after a tombstone is on its way, and puts none on its
way for a marked slot. -/
lemma Guarded.committed (hs : Inv s) (hg : Guarded s)
    (hcall : s.calls id = some ⟨op, .writing [] answer⟩) (ha : Careful s (.advance id))
    (hi : i ≠ id) (h : Releasing { s.withStage id op (.done answer) with
      conn := s.conn.commit, lock := none } i k) : s.conn.view.isQuarantined k = false := by
  obtain ⟨args, stage, hcall', hstage, hslot, hholds⟩ := h
  have hcall' : s.calls i = some ⟨.releaseAfterTombstone args, stage⟩ :=
    (calls_withStage_of_ne hi).symm.trans hcall'
  have hholds : Holds s.conn.view args.runtimeUuid k args.generation := hholds
  -- the call was on its way before, if it names the same occupancy
  have hbefore : Holds s.db args.runtimeUuid k args.generation → Releasing s i k :=
    fun hholds => ⟨args, stage, hcall', hstage, hslot, hholds⟩
  have hmoves := hs.committed hcall
  cases hmoves with
  | @took _ _ uid now slot g h =>
    have hmark : s.conn.view.isQuarantined k = s.db.isQuarantined k := by
      rw [Db.isQuarantined, h.quarantine, Db.isQuarantined]
    rw [hmark]
    by_cases hk : k = slot
    · subst hk
      cases hm : s.db.isQuarantined k with
      | false => rfl
      | true =>
        have hsame := hg.view hm
        rw [h.holds.1, h.free] at hsame
        cases hsame
    · refine hg.releasing (hbefore ⟨?_, ?_⟩)
      · rw [Db.occupant, ← h.others k hk]
        exact hholds.1
      · rw [Db.generationOf, ← h.others k hk]
        exact hholds.2
  | @freed _ _ _ uid slot g hop h =>
    have hmark : s.conn.view.isQuarantined k = s.db.isQuarantined k := by
      rw [Db.isQuarantined, h.quarantine, Db.isQuarantined]
    rw [hmark]
    have hk : k ≠ slot := by
      rintro rfl
      have hocc := hholds.1
      rw [h.free] at hocc
      cases hocc
    refine hg.releasing (hbefore ⟨?_, ?_⟩)
    · rw [Db.occupant, ← h.others k hk]
      exact hholds.1
    · rw [Db.generationOf, ← h.others k hk]
      exact hholds.2
  | kept hop h hmarks =>
    have hreleasing := hbefore ⟨h.occupant k ▸ hholds.1, h.generationOf k ▸ hholds.2⟩
    cases hm : s.conn.view.isQuarantined k with
    | false => rfl
    | true =>
      rcases hmarks.quarantine k hm with hold | ⟨reason, now, rfl⟩
      · exact hold.symm.trans (hg.releasing hreleasing)
      · have hcareful := ha (i + 1)
        simp only [CarefulUpTo, hcall] at hcareful
        exact absurd hreleasing (hcareful i (Nat.lt_succ_self i))

lemma Guarded.advance (hs : Inv s) (hg : Guarded s) (ha : Careful s (.advance id)) :
    Guarded (advance s id) := by
  have hspec := advance_spec s id
  generalize SlotStore.advance s id = s' at hspec ⊢
  cases hspec with
  | waits => exact hg
  | checks hcall hchecking hfree =>
    exact hg.withStage (locks_check hchecking _) fun k h => hg.checked hs hcall hchecking hfree h
  | answers hcall hfree hlocked =>
    exact hg.withStage rfl fun k h => absurd h (not_releasing calls_withStage_self nofun nofun)
  | @locks op todo answer hcall hfree hlocked =>
    rw [hs.view hfree] at hlocked
    refine ⟨?_, hg.view, ?_⟩
    · intro i op' todo' hw st hst k hslot
      rcases writes_withStage hw with ⟨rfl, -⟩ | ⟨-, hw⟩
      · obtain ⟨answer', hcall'⟩ := hw
        obtain ⟨-, hstage⟩ := Call.mk.inj (Option.some.inj (calls_withStage_self.symm.trans hcall'))
        obtain ⟨rfl, -⟩ := Stage.writing.inj hstage
        exact hg.target hcall hfree ha (locked_target hlocked hst hslot)
      · exact hg.todo hw st hst k hslot
    · intro i k h
      by_cases hi : i = id
      · subst hi
        exact absurd h (not_releasing calls_withStage_self nofun nofun)
      · obtain ⟨args, stage, hcall', hrest⟩ := h
        exact hg.releasing ⟨args, stage, (calls_withStage_of_ne hi).symm.trans hcall', hrest⟩
  | @writes op st todo answer conn hcall hexec =>
    have hdb : conn.committed = s.db := Conn.committed_exec hexec
    have htodo := hg.todo ⟨answer, hcall⟩
    refine ⟨?_, ?_, ?_⟩
    · intro i op' todo' hw st' hst' k hslot
      refine (congrArg (Db.isQuarantined · k) hdb).trans ?_
      rcases writes_withStage hw with ⟨rfl, -⟩ | ⟨-, hw⟩
      · obtain ⟨answer', hcall'⟩ := hw
        obtain ⟨-, hstage⟩ := Call.mk.inj (Option.some.inj (calls_withStage_self.symm.trans hcall'))
        obtain ⟨rfl, -⟩ := Stage.writing.inj hstage
        exact htodo st' (List.mem_cons_of_mem st hst') k hslot
      · exact hg.todo hw st' hst' k hslot
    · intro k hk
      have hk : s.db.isQuarantined k = true := (congrArg (Db.isQuarantined · k) hdb).symm.trans hk
      have hslot : st.writesSlot ≠ some k := by
        intro hslot
        rw [htodo st List.mem_cons_self k hslot] at hk
        cases hk
      exact (Conn.exec_frame hexec hslot).trans
        ((hg.view hk).trans (congrArg (Db.occupant · k) hdb).symm)
    · intro i k h
      refine (congrArg (Db.isQuarantined · k) hdb).trans ?_
      by_cases hi : i = id
      · subst hi
        exact absurd h (not_releasing calls_withStage_self nofun nofun)
      obtain ⟨args, stage, hcall', hstage, hslot, hholds⟩ := h
      have hholds : Holds s.db args.runtimeUuid k args.generation :=
        (congrArg (Holds · args.runtimeUuid k args.generation) hdb).mp hholds
      exact hg.releasing
        ⟨args, stage, (calls_withStage_of_ne hi).symm.trans hcall', hstage, hslot, hholds⟩
  | abandons hcall hexec => exact absurd hexec (hs.accepted hcall)
  | @commits op answer hcall =>
    have hlock := hs.lock ⟨answer, hcall⟩
    refine ⟨?_, fun _ => rfl, ?_⟩
    · intro i op' todo' hw st hst k hslot
      rcases writes_withStage hw with ⟨-, hlocks⟩ | ⟨hi, hw⟩
      · cases hlocks
      · exact absurd (Option.some.inj ((hs.lock hw).symm.trans hlock)) hi
    · intro i k h
      by_cases hi : i = id
      · subst hi
        exact absurd h (not_releasing calls_withStage_self nofun nofun)
      · exact hg.committed hs hcall ha hi h

lemma guarded_step (hs : Inv s) (hg : Guarded s) (ha : Careful s a) : Guarded (step s a) := by
  cases a with
  | call id op =>
    rw [step]
    by_cases hnew : s.calls id = none
    · rw [if_pos hnew]
      refine hg.withStage (locks_firstStage op) fun k h => ?_
      -- a release after a tombstone has not looked yet
      obtain ⟨args, stage, hcall, hstage, -⟩ := h
      obtain ⟨rfl, rfl⟩ := Call.mk.inj (Option.some.inj (calls_withStage_self.symm.trans hcall))
      rcases hstage with h | h <;> cases h
    · rwa [if_neg hnew]
  | advance id => exact hg.advance hs ha
  | crash poolSize => exact guarded_open poolSize s.db

lemma guarded_run (poolSize : PoolSize) {as : List Action}
    (has : StepsMeet step Careful (.initial poolSize) as) :
    Guarded (run step (.initial poolSize) as) := by
  have hboth := run_invariant_of_meets (P := fun s => Inv s ∧ Guarded s)
    (fun s a hs ha => ⟨inv_step hs.1 a, guarded_step hs.1 hs.2 ha⟩)
    ⟨inv_open poolSize wf_initial, guarded_open poolSize .initial⟩ has
  exact hboth.2

/-! ### Marked slots stay out of service -/

/-- No step of the run gives a marked slot to a runtime, or takes it from one. -/
def StaysOut (poolSize : PoolSize) (as : List Action) : Prop :=
  ∀ pre a, pre ++ [a] <+: as → ∀ slot,
    (run step (.initial poolSize) pre).db.isQuarantined slot = true →
    (run step (.initial poolSize) (pre ++ [a])).db.occupant slot =
      (run step (.initial poolSize) pre).db.occupant slot

lemma Commits.install (h : Commits s a op) : (step s a).db = s.conn.view := by
  obtain ⟨id, answer, rfl, hcall⟩ := h
  rw [step, SlotStore.advance, hcall]
  rfl

lemma Guarded.occupant (hs : Inv s) (hg : Guarded s) (a : Action)
    (hmark : s.db.isQuarantined slot = true) :
    (step s a).db.occupant slot = s.db.occupant slot := by
  rcases db_step hs a with ⟨hsame, -⟩ | ⟨op, hcommits, -⟩
  · rw [hsame]
  · rw [hcommits.install, hg.view hmark]

/-- In the runs in which every step meets the condition, marked slots stay out of service. -/
theorem staysOut_of_careful (poolSize : PoolSize) (as : List Action)
    (h : StepsMeet step Careful (.initial poolSize) as) : StaysOut poolSize as := by
  rintro pre a ⟨post, rfl⟩ slot hmark
  obtain ⟨hpre, -⟩ := stepsMeet_append.mp (stepsMeet_append.mp h).1
  rw [run_concat]
  exact (guarded_run poolSize hpre).occupant (inv_run poolSize pre) a hmark

/-! ### Two runs -/

def onePool : PoolSize := ⟨1, Nat.one_pos⟩

/-- The only slot of the pool is marked, and an assignment takes it. -/
def markedRun : List Action :=
  [.call 0 (.quarantineSlot 1 "integrity_assertion_failed" 0), .advance 0, .advance 0, .advance 0,
    .call 1 (.assign "runtime-a" 0), .advance 1, .advance 1, .advance 1, .advance 1, .advance 1]

/-- A marked slot is handed out. -/
theorem staysOut_broken : ¬ StaysOut onePool markedRun := by
  intro h
  have hkept := h (markedRun.take 9) (.advance 1) (by decide +kernel) 1 (by decide +kernel)
  have hbefore : (run step (.initial onePool) (markedRun.take 9)).db.occupant 1 = none := by
    decide +kernel
  have hafter : (run step (.initial onePool) (markedRun.take 9 ++ [.advance 1])).db.occupant 1 =
      some "runtime-a" := by decide +kernel
  rw [hbefore, hafter] at hkept
  cases hkept

instance (db : Db) (uid : String) (slot g : ℤ) : Decidable (Holds db uid slot g) :=
  inferInstanceAs (Decidable (_ ∧ _))

instance (s : State) (id : ℕ) (slot : ℤ) : Decidable (Releasing s id slot) :=
  match hcall : s.calls id with
  | some ⟨.releaseAfterTombstone args, stage⟩ =>
    decidable_of_iff ((stage = .quarantineRead ∨ stage = .ready) ∧ args.slot = slot ∧
      Holds s.db args.runtimeUuid slot args.generation)
      ⟨fun h => ⟨args, stage, hcall, h⟩, fun ⟨_, _, hcall', h⟩ => by
        obtain ⟨hargs, rfl⟩ := Call.mk.inj (Option.some.inj (hcall.symm.trans hcall'))
        obtain rfl := Op.releaseAfterTombstone.inj hargs
        exact h⟩
  | none => .isFalse fun ⟨_, _, hcall', _⟩ => nomatch hcall.symm.trans hcall'
  | some ⟨.lookup _, _⟩ | some ⟨.assign _ _, _⟩ | some ⟨.release _ _, _⟩
  | some ⟨.quarantineSlot _ _ _, _⟩ | some ⟨.clearQuarantine _, _⟩
  | some ⟨.blockAllocation _ _, _⟩ | some ⟨.clearAllocationBlock _ _, _⟩ =>
    .isFalse fun ⟨_, _, hcall', _⟩ => nomatch hcall.symm.trans hcall'

instance (n : ℕ) (s : State) (a : Action) : Decidable (CarefulUpTo n s a) := by
  unfold CarefulUpTo
  split
  · split <;> infer_instance
  · infer_instance

lemma careful_of_upTo {n : ℕ} (hn : ∀ i, n ≤ i → s.calls i = none) (h : CarefulUpTo n s a) :
    Careful s a := by
  intro m
  unfold CarefulUpTo at h ⊢
  split
  · split
    · rename_i heq
      simp only [heq] at h
      exact h
    · rename_i heq
      simp only [heq] at h
      exact h
    · rename_i slot _ _ _ heq
      simp only [heq] at h
      intro i _ hreleasing
      by_cases hi : i < n
      · exact h i hi hreleasing
      · obtain ⟨args, stage, hcall, -⟩ := hreleasing
        rw [hn i (Nat.le_of_not_lt hi)] at hcall
        cases hcall
    · trivial
  · trivial

/-- The action gives no call a number from `n` on. -/
def NumberedBelow (n : ℕ) : Action → Prop
  | .call id _ => id < n
  | _ => True

instance (n : ℕ) (a : Action) : Decidable (NumberedBelow n a) := by
  cases a <;> unfold NumberedBelow <;> infer_instance

lemma calls_run_eq_none {n : ℕ} {poolSize : PoolSize} {as : List Action}
    (has : ∀ a ∈ as, NumberedBelow n a) :
    ∀ i, n ≤ i → (run step (.initial poolSize) as).calls i = none := by
  suffices hstep : ∀ (s : State) (a : Action), (∀ i, n ≤ i → s.calls i = none) →
      NumberedBelow n a → ∀ i, n ≤ i → (step s a).calls i = none by
    exact run_invariant_of_meets (P := fun s : State => ∀ i, n ≤ i → s.calls i = none)
      (C := fun _ a => NumberedBelow n a) hstep (fun _ _ => rfl) (stepsMeet_of_forall_mem has)
  intro s a hs ha i hi
  cases a with
  | call id op =>
    rw [step]
    split
    · have hne : i ≠ id := fun h => absurd ha (Nat.not_lt.mpr (h ▸ hi))
      rw [calls_withStage_of_ne hne, hs i hi]
    · exact hs i hi
  | advance id =>
    cases hcall : (step s (.advance id)).calls i with
    | none => rfl
    | some call =>
      obtain ⟨stage, hbefore⟩ := op_advance hcall
      rw [hs i hi] at hbefore
      cases hbefore
  | crash poolSize => rfl

lemma careful_run {n : ℕ} {poolSize : PoolSize} {as : List Action}
    (has : ∀ a ∈ as, NumberedBelow n a)
    (h : StepsMeet step (CarefulUpTo n) (.initial poolSize) as) :
    StepsMeet step Careful (.initial poolSize) as := by
  refine stepsMeet_iff.mpr fun pre a post hsplit => ?_
  refine careful_of_upTo (calls_run_eq_none fun b hb => has b ?_)
    (stepsMeet_iff.mp h pre a post hsplit)
  rw [hsplit]
  exact List.mem_append_left _ hb

def twoPool : PoolSize := ⟨2, by decide⟩

/-- A runtime takes slot 1 and is released after its tombstone, while slot 2 is marked; another one
takes slot 1 and leaves it again, and the mark of slot 1 set after that stays. -/
def servicedRun : List Action :=
  ([.call 0 (.assign "runtime-a" 1)] : List Action) ++ List.replicate 5 (Action.advance 0) ++
  ([.call 1 (.releaseAfterTombstone ⟨"runtime-a", 1, 1, releaseProofs, 2⟩), .advance 1,
    .call 2 (.quarantineSlot 2 "operator" 3), .advance 2, .advance 2, .advance 2] : List Action) ++
  List.replicate 6 (Action.advance 1) ++
  ([.call 3 (.assign "runtime-b" 4)] : List Action) ++ List.replicate 4 (Action.advance 3) ++
  ([.call 4 (.release "runtime-b" 5)] : List Action) ++ List.replicate 4 (Action.advance 4) ++
  ([.call 5 (.quarantineSlot 1 "operator" 6), .advance 5, .advance 5, .advance 5] : List Action)

theorem staysOut_servicedRun :
    (run step (.initial twoPool) servicedRun).db.isQuarantined 1 = true ∧
      (run step (.initial twoPool) servicedRun).db.generationOf 1 = some 3 ∧
      StaysOut twoPool servicedRun :=
  ⟨by decide +kernel, by decide +kernel,
    staysOut_of_careful twoPool servicedRun
      (careful_run (n := 6) (by decide +kernel) (by decide +kernel))⟩

end SlotStore
end GuvFX
