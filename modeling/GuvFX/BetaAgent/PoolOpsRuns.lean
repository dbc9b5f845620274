/-
# A released slot is clean

A release rests on the recorded stages of the occupancy: the directory was moved away, and a cleanup
has found neither directory nor task nor process.  Under the lock of the runtime nothing changes
between these looks and the record.  What a later staging in the same occupancy does to the slot is
not asked for again.

So a slot is clean when it is released, as long as no content has been staged in the occupancy after
its last completed cleanup.
-/
import GuvFX.BetaAgent.PoolOps

namespace GuvFX
namespace SlotStore

open Checks

variable {db db' : Db} {n : ℕ} {uid : String} {slot g now : ℤ} {answer : Answer}

/-! ### The operations of the store at one moment -/

lemma apply_spec (hdb : Wf db) (op : Op) (n : ℕ) :
    (db.apply n op).1 = db ∨ Moves op db (db.apply n op).1 := by
  unfold Db.apply
  split
  · exact .inl rfl
  · rename_i todo answer hlocked
    obtain ⟨c, hc, -, hmoves⟩ := locked_spec hdb hlocked
    rw [hc]
    exact .inr hmoves

lemma Holds.unique {uid' : String} {g' : ℤ} (h : Holds db uid slot g) (h' : Holds db uid' slot g') :
    uid = uid' ∧ g = g' :=
  ⟨Option.some.inj (h.1.symm.trans h'.1), Option.some.inj (h.2.symm.trans h'.2)⟩

lemma apply_assign (hdb : Wf db) (h : db.apply n (.assign uid now) = (db', .assigned slot g)) :
    (db' = db ∧ Holds db uid slot g) ∨ Took db db' slot uid g := by
  unfold Db.apply at h
  simp only [Op.locked] at h
  cases hheld : db.slotOf uid with
  | some row =>
    simp only [hheld, Prod.mk.injEq, Answer.assigned.injEq] at h
    obtain ⟨rfl, rfl, rfl⟩ := h
    exact .inl ⟨rfl, holds_of_slotOf hheld⟩
  | none =>
    cases hfree : db.lowestFree n with
    | none => simp [hheld, hfree] at h
    | some k =>
      cases hrow : db.slots.get k with
      | some row =>
        obtain ⟨db₁, hexec, htook⟩ := took_occupy hheld (mem_lowestFree hfree) hrow now
        obtain ⟨c, hc, -, hview⟩ := Conn.execAll_view (by simp) (Conn.mk db none) hexec
        simp only [hheld, hfree, hrow, hc, Prod.mk.injEq, Answer.assigned.injEq] at h
        obtain ⟨rfl, rfl, rfl⟩ := h
        rw [hview]
        exact .inr htook
      | none =>
        obtain ⟨db₁, hexec, htook⟩ := took_insert hdb hheld hrow now
        obtain ⟨c, hc, -, hview⟩ := Conn.execAll_view (by simp) (Conn.mk db none) hexec
        simp only [hheld, hfree, hrow, hc, Prod.mk.injEq, Answer.assigned.injEq] at h
        obtain ⟨rfl, rfl, rfl⟩ := h
        rw [hview]
        exact .inr htook

lemma apply_advance {args : ReleaseArgs} (hdb : Wf db)
    (h : db.apply n (.releaseAfterTombstone args) = (db', .advanced g)) :
    Freed db db' args.slot args.runtimeUuid args.generation := by
  unfold Db.apply at h
  split at h
  · rename_i answer hlocked
    obtain ⟨-, rfl⟩ := Prod.mk.inj h
    simp only [Op.locked] at hlocked
    split at hlocked
    · cases hlocked
    · split at hlocked <;> cases hlocked
  · rename_i todo answer hlocked
    obtain ⟨c, hc, -, hmoves⟩ := locked_spec hdb hlocked
    rw [hc] at h
    obtain ⟨rfl, rfl⟩ := Prod.mk.inj h
    -- the slot that is freed is the one that the runtime holds
    have hheld : Holds db args.runtimeUuid args.slot args.generation := by
      simp only [Op.locked] at hlocked
      split at hlocked
      · cases hlocked
      · rename_i row hrow
        split at hlocked
        · cases hlocked
        · rename_i hagree
          have hholds := holds_of_slotOf hrow
          rwa [not_not.mp (not_or.mp hagree).1, not_not.mp (not_or.mp hagree).2] at hholds
    cases hmoves with
    | freed hop hfreed =>
      rename_i uid k g'
      obtain rfl : args.runtimeUuid = uid := Option.some.inj hop
      obtain rfl : k = args.slot := hdb.one_slot hfreed.holds.1 hheld.1
      obtain rfl := (hfreed.holds.unique hheld).2
      exact hfreed
    | kept hop => cases hop

lemma apply_advance_refused {args : ReleaseArgs}
    (h : db.apply n (.releaseAfterTombstone args) = (db', answer))
    (hnot : ∀ g, answer ≠ .advanced g) : db' = db := by
  unfold Db.apply at h
  simp only [Op.locked] at h
  cases hheld : db.slotOf args.runtimeUuid with
  | none =>
    simp only [hheld] at h
    exact (Prod.mk.inj h).1.symm
  | some row =>
    simp only [hheld] at h
    split at h
    · rename_i hlocked
      exact (Prod.mk.inj h).1.symm
    · rename_i todo answer' hlocked
      split at hlocked
      · cases hlocked
      · obtain ⟨rfl, rfl⟩ := Prod.mk.inj (Except.ok.inj hlocked)
        split at h
        · exact absurd (Prod.mk.inj h).2.symm (hnot _)
        · exact (Prod.mk.inj h).1.symm

lemma apply_assign_refused (h : db.apply n (.assign uid now) = (db', answer))
    (hnot : ∀ slot g, answer ≠ .assigned slot g) : db' = db := by
  unfold Db.apply at h
  simp only [Op.locked] at h
  cases hheld : db.slotOf uid with
  | some row =>
    simp only [hheld] at h
    exact (Prod.mk.inj h).1.symm
  | none =>
    cases hfree : db.lowestFree n with
    | none =>
      simp only [hheld, hfree] at h
      exact (Prod.mk.inj h).1.symm
    | some k =>
      cases hrow : db.slots.get k with
      | some row =>
        simp only [hheld, hfree, hrow] at h
        split at h
        · exact absurd (Prod.mk.inj h).2.symm (hnot _ _)
        · exact (Prod.mk.inj h).1.symm
      | none =>
        simp only [hheld, hfree, hrow] at h
        split at h
        · exact absurd (Prod.mk.inj h).2.symm (hnot _ _)
        · exact (Prod.mk.inj h).1.symm

lemma apply_kept (hdb : Wf db) {op : Op} (n : ℕ) (hop : op.releases = none)
    (hassign : ∀ uid now, op ≠ .assign uid now) : Kept db (db.apply n op).1 := by
  have hspec := apply_spec hdb op n
  generalize (db.apply n op).1 = db' at hspec
  rcases hspec with rfl | hmoves
  · exact ⟨rfl, rfl⟩
  · cases hmoves with
    | took => exact absurd rfl (hassign _ _)
    | freed hfrees => rw [hop] at hfrees; cases hfrees
    | kept _ hkept => exact hkept

end SlotStore

namespace PoolOps

open Runs
open SlotStore (Db Holds Took Freed Kept Wf)

variable {w w' : World} {s : State} {a : Action} {id id' : ℕ} {t t' : Thread} {ctx ctx' : Ctx}
  {p : Prim} {rest : List Prim} {op : PoolOp} {input : Input} {slot g : ℤ} {u : String}
  {poolSize : ℕ}

/-! ### What is clean -/

/-- The directory of a slot has neither content nor a marker of an occupancy. -/
def TreeFree (w : World) (slot g : ℤ) : Prop :=
  ∀ tree, w.trees slot = some tree →
    g ∉ tree.staged ∧ ∀ m, tree.marker = some m → ¬ (m.slot = slot ∧ m.generation = g)

/-- Nothing of an occupancy is in its slot, and nothing of it can appear there. -/
structure Safe (w : World) (slot g : ℤ) : Prop where
  tree : TreeFree w slot g
  launches : g ∉ w.launches slot
  processes : g ∉ w.processes slot

/-- The results of the looks at the host are still true. -/
structure Looked (w : World) (ctx : Ctx) : Prop where
  tree : ctx.slotDirectoryEmpty = true → TreeFree w ctx.slot ctx.generation
  launches : ctx.noTaskRunning = true → ctx.generation ∉ w.launches ctx.slot
  processes : ctx.noTaskRunning = true → ctx.noRuntimeProcess = true →
    ctx.generation ∉ w.processes ctx.slot

/-- A cleanup has been recorded as completed. -/
def History.Past (h : History) : Prop := h = .cleaned ∨ h = .restaged

lemma History.Past.stage {h : History} (hpast : h.Past) : h.stage.Past := by
  rcases hpast with rfl | rfl <;> exact .inr rfl

lemma stage_ne_cleaned (h : History) : h.stage ≠ .cleaned := by
  cases h <;> nofun

/-! ### Changes of the world -/

/-- A change of the world that leaves the occupancies alone, up to one. -/
structure Agree (except : Option (ℤ × ℤ)) (w w' : World) : Prop where
  tree : ∀ slot g, some (slot, g) ≠ except → TreeFree w slot g → TreeFree w' slot g
  launches : ∀ slot g, some (slot, g) ≠ except → g ∉ w.launches slot → g ∉ w'.launches slot
  processes : ∀ slot g, some (slot, g) ≠ except → g ∉ w.launches slot → g ∉ w.processes slot →
    g ∉ w'.processes slot
  history : ∀ o, some o ≠ except → w'.history o = w.history o
  past : ∀ o, (w.history o).Past → (w'.history o).Past
  holders : ∀ h ∈ w.holders, h ∈ w'.holders

/-- A change of the tables and the locks alone. -/
lemma agree_of_eq {except : Option (ℤ × ℤ)} (htrees : w'.trees = w.trees)
    (hlaunches : w'.launches = w.launches) (hprocesses : w'.processes = w.processes)
    (hhistory : w'.history = w.history) (hholders : ∀ h ∈ w.holders, h ∈ w'.holders) :
    Agree except w w' := by
  refine ⟨?_, ?_, ?_, ?_, ?_, hholders⟩
  · intro slot g _ h tree htree
    exact h tree (by rw [← htrees]; exact htree)
  · intro slot g _ h
    rwa [hlaunches]
  · intro slot g _ _ h
    rwa [hprocesses]
  · intro o _
    rw [hhistory]
  · intro o h
    rwa [hhistory]

lemma Agree.refl (except : Option (ℤ × ℤ)) (w : World) : Agree except w w :=
  agree_of_eq rfl rfl rfl rfl fun _ h => h

lemma Agree.weaken (h : Agree none w w') (except : Option (ℤ × ℤ)) : Agree except w w' :=
  ⟨fun k g _ => h.tree k g nofun, fun k g _ => h.launches k g nofun,
    fun k g _ => h.processes k g nofun, fun o _ => h.history o nofun, h.past, h.holders⟩

lemma trees_self {tree : Option Tree} : (w.withTree slot tree).trees slot = tree :=
  Function.update_self ..

lemma trees_of_ne {tree : Option Tree} {k : ℤ} (h : k ≠ slot) :
    (w.withTree slot tree).trees k = w.trees k := Function.update_of_ne h ..

lemma agree_withTree {tree' : Option Tree} (h : ∀ g', g' ≠ g → TreeFree w slot g' →
    TreeFree (w.withTree slot tree') slot g') : Agree (some (slot, g)) w (w.withTree slot tree') := by
  refine ⟨?_, fun _ _ _ h => h, fun _ _ _ _ h => h, fun _ _ => rfl, fun _ h => h, fun _ h => h⟩
  intro k g' hne hfree
  by_cases hk : k = slot
  · subst hk
    exact h g' (fun hg => hne (by rw [hg])) hfree
  · intro tree htree
    exact hfree tree ((trees_of_ne hk).symm.trans htree)

/-! ### The requests and the world -/

/-- What is left of the program of a request. -/
def Thread.todo (t : Thread) : List Prim :=
  match t.phase with
  | .running todo => todo
  | _ => []

/-- What holds of a request. -/
structure ThreadInv (w : World) (t : Thread) : Prop where
  suffix : ∀ todo, t.phase = .running todo → todo <:+ t.op.program
  /-- A request that knows its slot has its lock. -/
  bound : ∀ ctx, t.ctx = some ctx → .lock ∉ t.todo
  holder : ∀ ctx, t.ctx = some ctx → (ctx.slot, ctx.generation, t.runtime) ∈ w.holders
  looked : ∀ todo, t.phase = .running todo → t.op = .tombstone → ∀ ctx, t.ctx = some ctx →
    Looked w ctx
  /-- After a cleanup nothing is staged without being seen. -/
  staging : ∀ todo, t.phase = .running todo → t.op = .materialise → ∀ ctx, t.ctx = some ctx →
    w.history (ctx.slot, ctx.generation) = .cleaned → ctx.status = none →
    .writeOwnerTag ∈ todo → .copy ∈ todo
  starting : ∀ todo, t.phase = .running todo → t.op = .start → ∀ ctx, t.ctx = some ctx →
    w.history (ctx.slot, ctx.generation) = .cleaned →
    ctx.markerRaw ≠ some ⟨t.runtime, ctx.slot, ctx.generation⟩ ∧
      (.triggerLaunch ∈ todo → .gate ∈ todo)
  read : ∀ ctx, t.ctx = some ctx → ctx.cleanup = true →
    (w.history (ctx.slot, ctx.generation)).Past
  proved : ∀ todo, t.phase = .running todo → t.op = .release → .checkProofs ∉ todo →
    ∃ ctx, t.ctx = some ctx ∧ ctx.cleanup = true

structure WorldInv (w : World) : Prop where
  wf : Wf w.db
  /-- An occupancy has one runtime. -/
  functional : ∀ slot g u u', (slot, g, u) ∈ w.holders → (slot, g, u') ∈ w.holders → u = u'
  current : ∀ slot g u, Holds w.db u slot g → (slot, g, u) ∈ w.holders
  past : ∀ slot g u, (slot, g, u) ∈ w.holders → ∃ g', w.db.generationOf slot = some g' ∧
    (g < g' ∨ (g = g' ∧ w.db.occupant slot = some u))
  cleaned : ∀ slot g, w.history (slot, g) = .cleaned → Safe w slot g
  evidence : ∀ row ∈ w.evidence, row.operation = .verifyCleanup → row.stageStatus = .completed →
    (w.history (row.slot, row.generation)).Past

/-- A request that is not the one of the occupancy which has changed, or that is over. -/
lemma ThreadInv.agree {except : Option (ℤ × ℤ)} (ht : ThreadInv w t) (hagree : Agree except w w')
    (hne : ∀ ctx todo, t.ctx = some ctx → t.op.mutating = true → t.phase = .running todo →
      some (ctx.slot, ctx.generation) ≠ except) : ThreadInv w' t := by
  refine ⟨ht.suffix, ht.bound, ?_, ?_, ?_, ?_, ?_, ht.proved⟩
  · exact fun ctx hctx => hagree.holders _ (ht.holder ctx hctx)
  · intro todo hphase hop ctx hctx
    have hne' := hne ctx todo hctx (by rw [hop]; rfl) hphase
    obtain ⟨htree, hlaunches, hprocesses⟩ := ht.looked todo hphase hop ctx hctx
    refine ⟨fun h => hagree.tree _ _ hne' (htree h),
      fun h => hagree.launches _ _ hne' (hlaunches h), fun h h' => ?_⟩
    exact hagree.processes _ _ hne' (hlaunches h) (hprocesses h h')
  · intro todo hphase hop ctx hctx hcleaned
    rw [hagree.history _ (hne ctx todo hctx (by rw [hop]; rfl) hphase)] at hcleaned
    exact ht.staging todo hphase hop ctx hctx hcleaned
  · intro todo hphase hop ctx hctx hcleaned
    rw [hagree.history _ (hne ctx todo hctx (by rw [hop]; rfl) hphase)] at hcleaned
    exact ht.starting todo hphase hop ctx hctx hcleaned
  · exact fun ctx hctx hcleanup => hagree.past _ (ht.read ctx hctx hcleanup)

/-- A request that is over. -/
lemma ThreadInv.stopped (ht : ThreadInv w t) {phase : Phase}
    (hnot : ∀ todo, phase ≠ .running todo) : ThreadInv w { t with phase } := by
  have htodo : ({ t with phase } : Thread).todo = [] := by
    unfold Thread.todo
    split
    · rename_i todo htodo
      exact absurd htodo (hnot todo)
    · rfl
  refine ⟨fun todo h => absurd h (hnot todo), ?_, ht.holder, fun todo h => absurd h (hnot todo),
    fun todo h => absurd h (hnot todo), fun todo h => absurd h (hnot todo), ht.read,
    fun todo h => absurd h (hnot todo)⟩
  intro ctx _
  rw [htodo]
  exact List.not_mem_nil

lemma ended_ne_running (t : Thread) (succeeded : Bool) (todo : List Prim) :
    (if t.op.mutating then Phase.over succeeded else .answered succeeded) ≠ .running todo := by
  split <;> nofun

lemma ThreadInv.ended (ht : ThreadInv w t) (succeeded : Bool) :
    ThreadInv w (t.ended t.ctx succeeded) := ht.stopped (ended_ne_running t succeeded)

lemma ThreadInv.refused (ht : ThreadInv w t) (p : Prim) : ThreadInv w (t.refused p) := by
  unfold Thread.refused
  split
  · exact ht.stopped nofun
  · exact ht.ended false

/-! ### Positions in the programs -/

/-- The operation that a step belongs to, if there is one. -/
def Prim.home : Prim → Option PoolOp
  | .precheckCopy | .copy | .copyEnd | .writeOwnerTag | .postCheck | .writeCommonIni =>
    some .materialise
  | .observeIdle | .triggerLaunch | .confirmLaunch => some .start
  | .triggerTerminate | .confirmTerminated => some .stop
  | .lookDirectory | .lookTasks | .lookProcess | .lookHandles | .recordProofs _ | .precheckMove
  | .moveDir => some .tombstone
  | .observeAbsent | .auditCheckpoint | .readEvidence | .assertEvidence | .checkProofs
  | .checkQuarantine | .checkMonotonic | .advance => some .release
  | .observe => some .verify
  | .lock | .resolve | .readMarker | .gate | .record _ | .checkTask => none

lemma position {F : PoolOp → List Prim → Prop} (hall : ∀ op : PoolOp, ∀ l ∈ op.program.tails, F op l)
    {l : List Prim} (h : l <:+ op.program) : F op l :=
  hall op l ((List.mem_tails _ _).mpr h)

lemma op_eq_of_home {op' : PoolOp} (h : (p :: rest) <:+ op.program) (hhome : p.home = some op') :
    op = op' := by
  have hfact : ∀ op' : PoolOp, (p :: rest).head?.bind Prim.home = some op' → op = op' :=
    position (F := fun op l => ∀ op', l.head?.bind Prim.home = some op' → op = op')
      (by intro op; cases op <;> simp [PoolOp.program, List.tails, Prim.home]) h
  exact hfact op' hhome

lemma lock_notMem (h : (p :: rest) <:+ op.program) : .lock ∉ rest :=
  position (F := fun _ l => .lock ∉ l.tail) (by intro op; cases op <;> decide) h

lemma copy_notMem_of_tag (h : (Prim.writeOwnerTag :: rest) <:+ op.program) : .copy ∉ rest :=
  position (F := fun _ l => l.head? = some .writeOwnerTag → .copy ∉ l.tail)
    (by intro op; cases op <;> decide) h rfl

lemma copy_mem_of_precheck (h : (Prim.precheckCopy :: rest) <:+ op.program) : .copy ∈ rest :=
  position (F := fun _ l => l.head? = some .precheckCopy → .copy ∈ l.tail)
    (by intro op; cases op <;> decide) h rfl

def recordsLate : List Prim → Bool
  | .record stage :: rest => stage ≠ .verifyCleanup && .writeOwnerTag ∉ rest
  | _ => true

lemma tag_notMem_of_record {stage : StageName} (h : (Prim.record stage :: rest) <:+ op.program) :
    stage ≠ .verifyCleanup ∧ .writeOwnerTag ∉ rest := by
  have hlate : recordsLate (.record stage :: rest) = true :=
    position (F := fun _ l => recordsLate l = true) (by intro op; cases op <;> decide) h
  simpa [recordsLate] using hlate

lemma gate_notMem_of_trigger (h : (Prim.triggerLaunch :: rest) <:+ op.program) : .gate ∉ rest :=
  position (F := fun _ l => l.head? = some .triggerLaunch → .gate ∉ l.tail)
    (by intro op; cases op <;> decide) h rfl

lemma checkProofs_mem_of_readEvidence (h : (Prim.readEvidence :: rest) <:+ op.program) :
    .checkProofs ∈ rest :=
  position (F := fun _ l => l.head? = some .readEvidence → .checkProofs ∈ l.tail)
    (by intro op; cases op <;> decide) h rfl

/-- Everything else comes after the slot has been looked up. -/
lemma position_resolve (h : (Prim.resolve :: rest) <:+ op.program) :
    (.writeOwnerTag ∈ rest → .copy ∈ rest) ∧ (.triggerLaunch ∈ rest → .gate ∈ rest) ∧
      (op = .release → .checkProofs ∈ rest) :=
  position (F := fun op l => l.head? = some .resolve →
    (.writeOwnerTag ∈ l.tail → .copy ∈ l.tail) ∧ (.triggerLaunch ∈ l.tail → .gate ∈ l.tail) ∧
      (op = .release → .checkProofs ∈ l.tail)) (by intro op; cases op <;> decide) h rfl

/-! ### Steps of a program -/

/-- A request after a step of its program. -/
def Thread.goOn (t : Thread) (rest : List Prim) (ctx : Option Ctx) : Thread :=
  { t with phase := .running rest, ctx }

/-- The occupancy that a request may change. -/
def Thread.touches (t : Thread) : Option (ℤ × ℤ) :=
  if t.op.mutating then t.ctx.map fun ctx => (ctx.slot, ctx.generation) else none

/-- What a step of a program keeps. -/
def Result.Fits (w : World) (t : Thread) (rest : List Prim) : Result → Prop
  | .next w' ctx => w'.locks = w.locks ∧ WorldInv w' ∧ Agree t.touches w w' ∧
      ThreadInv w' (t.goOn rest ctx)
  | .finish w' ctx => w'.locks = w.locks ∧ WorldInv w' ∧ Agree t.touches w w' ∧
      ThreadInv w' (t.goOn rest ctx)
  | .refuse w' => w'.locks = w.locks ∧ WorldInv w' ∧ Agree none w w'

lemma ThreadInv.step {except : Option (ℤ × ℤ)} (ht : ThreadInv w t) (hagree : Agree except w w')
    (hphase : t.phase = .running (p :: rest)) (hctx : t.ctx = some ctx) (hslot : ctx'.slot = ctx.slot)
    (hgeneration : ctx'.generation = ctx.generation) (hlooked : t.op = .tombstone → Looked w' ctx')
    (hstaging : t.op = .materialise → w'.history (ctx.slot, ctx.generation) = .cleaned →
      ctx'.status = none → .writeOwnerTag ∈ rest → .copy ∈ rest)
    (hstarting : t.op = .start → w'.history (ctx.slot, ctx.generation) = .cleaned →
      ctx'.markerRaw ≠ some ⟨t.runtime, ctx.slot, ctx.generation⟩ ∧
        (.triggerLaunch ∈ rest → .gate ∈ rest))
    (hread : ctx'.cleanup = true → (w'.history (ctx.slot, ctx.generation)).Past)
    (hproved : t.op = .release → .checkProofs ∉ rest → ctx'.cleanup = true) :
    ThreadInv w' (t.goOn rest (some ctx')) := by
  have hsuffix := ht.suffix _ hphase
  have hrest : ∀ {todo}, (t.goOn rest (some ctx')).phase = .running todo → rest = todo :=
    fun h => Phase.running.inj h
  refine ⟨?_, ?_, ?_, ?_, ?_, ?_, ?_, ?_⟩
  · intro todo h
    obtain rfl := hrest h
    exact (List.suffix_cons p rest).trans hsuffix
  · intro _ _
    exact lock_notMem hsuffix
  · rintro _ ⟨⟩
    rw [hslot, hgeneration]
    exact hagree.holders _ (ht.holder ctx hctx)
  · rintro todo _ hop _ ⟨⟩
    exact hlooked hop
  · rintro todo h hop _ ⟨⟩ hcleaned
    obtain rfl := hrest h
    rw [hslot, hgeneration] at hcleaned
    exact hstaging hop hcleaned
  · rintro todo h hop _ ⟨⟩ hcleaned
    obtain rfl := hrest h
    rw [hslot, hgeneration] at hcleaned ⊢
    exact hstarting hop hcleaned
  · rintro _ ⟨⟩ h
    rw [hslot, hgeneration]
    exact hread h
  · intro todo h hop hnot
    obtain rfl := hrest h
    exact ⟨ctx', rfl, hproved hop hnot⟩

lemma ThreadInv.cleanup_of (ht : ThreadInv w t) (hphase : t.phase = .running (p :: rest))
    (hctx : t.ctx = some ctx) (hp : p ≠ .checkProofs) (hop : t.op = .release)
    (hnot : .checkProofs ∉ rest) : ctx.cleanup = true := by
  have hnot' : .checkProofs ∉ p :: rest := by
    rw [List.mem_cons, not_or]
    exact ⟨Ne.symm hp, hnot⟩
  obtain ⟨ctx₀, hctx₀, hread⟩ := ht.proved _ hphase hop hnot'
  obtain rfl := Option.some.inj (hctx.symm.trans hctx₀)
  exact hread

lemma ThreadInv.staging_of (ht : ThreadInv w t) (hphase : t.phase = .running (p :: rest))
    (hctx : t.ctx = some ctx) (hp : p ≠ .copy) (hop : t.op = .materialise)
    (hcleaned : w.history (ctx.slot, ctx.generation) = .cleaned) (hnone : ctx.status = none)
    (htag : .writeOwnerTag ∈ rest) : .copy ∈ rest := by
  have hmem := ht.staging _ hphase hop ctx hctx hcleaned hnone (List.mem_cons_of_mem _ htag)
  exact (List.mem_cons.mp hmem).resolve_left (Ne.symm hp)

lemma ThreadInv.starting_of (ht : ThreadInv w t) (hphase : t.phase = .running (p :: rest))
    (hctx : t.ctx = some ctx) (hp : p ≠ .gate) (hop : t.op = .start)
    (hcleaned : w.history (ctx.slot, ctx.generation) = .cleaned) :
    ctx.markerRaw ≠ some ⟨t.runtime, ctx.slot, ctx.generation⟩ ∧
      (.triggerLaunch ∈ rest → .gate ∈ rest) := by
  obtain ⟨hne, hgate⟩ := ht.starting _ hphase hop ctx hctx hcleaned
  refine ⟨hne, fun htrigger => ?_⟩
  exact (List.mem_cons.mp (hgate (List.mem_cons_of_mem _ htrigger))).resolve_left (Ne.symm hp)

lemma ThreadInv.plain (ht : ThreadInv w t) (hphase : t.phase = .running (p :: rest))
    (hctx : t.ctx = some ctx) (hslot : ctx'.slot = ctx.slot)
    (hgeneration : ctx'.generation = ctx.generation) (hmarker : ctx'.markerRaw = ctx.markerRaw)
    (hcleanup : ctx'.cleanup = ctx.cleanup) (hp : p ≠ .copy ∧ p ≠ .gate ∧ p ≠ .checkProofs)
    (hlooked : t.op = .tombstone → Looked w ctx')
    (hstatus : ctx'.status = none → .writeOwnerTag ∈ rest → ctx.status = none ∨ .copy ∈ rest) :
    ThreadInv w (t.goOn rest (some ctx')) := by
  refine ht.step (Agree.refl none w) hphase hctx hslot hgeneration hlooked ?_ ?_ ?_ ?_
  · intro hop hcleaned hnone htag
    rcases hstatus hnone htag with hbefore | hcopy
    · exact ht.staging_of hphase hctx hp.1 hop hcleaned hbefore htag
    · exact hcopy
  · intro hop hcleaned
    rw [hmarker]
    exact ht.starting_of hphase hctx hp.2.1 hop hcleaned
  · exact fun h => ht.read ctx hctx (hcleanup ▸ h)
  · exact fun hop hnot => hcleanup.trans (ht.cleanup_of hphase hctx hp.2.2 hop hnot)

/-- A step that has found out nothing new. -/
lemma ThreadInv.same (ht : ThreadInv w t) (hphase : t.phase = .running (p :: rest))
    (hctx : t.ctx = some ctx) (hp : p ≠ .copy ∧ p ≠ .gate ∧ p ≠ .checkProofs) :
    ThreadInv w (t.goOn rest (some ctx)) :=
  ht.plain hphase hctx rfl rfl rfl rfl hp (fun hop => ht.looked _ hphase hop ctx hctx)
    fun h _ => .inl h

lemma ThreadInv.decided (ht : ThreadInv w t) (hphase : t.phase = .running (p :: rest))
    (hctx : t.ctx = some ctx) (hp : p ≠ .copy ∧ p ≠ .gate ∧ p ≠ .checkProofs) (status : Status) :
    ThreadInv w (t.goOn rest (some { ctx with status := some status })) := by
  refine ht.plain hphase hctx rfl rfl rfl rfl hp (fun hop => ?_) fun h => (by cases h)
  obtain ⟨htree, hlaunches, hprocesses⟩ := ht.looked _ hphase hop ctx hctx
  exact ⟨htree, hlaunches, hprocesses⟩

/-! ### Steps that change the world -/

lemma Safe.agree {except : Option (ℤ × ℤ)} (h : Safe w slot g) (hagree : Agree except w w')
    (hne : some (slot, g) ≠ except) : Safe w' slot g :=
  ⟨hagree.tree _ _ hne h.tree, hagree.launches _ _ hne h.launches,
    hagree.processes _ _ hne h.launches h.processes⟩

/-- A change that leaves the tables and the records alone. -/
lemma WorldInv.agree {except : Option (ℤ × ℤ)} (hw : WorldInv w) (hagree : Agree except w w')
    (hdb : w'.db = w.db) (hholders : w'.holders = w.holders) (hevidence : w'.evidence = w.evidence)
    (hexcept : ∀ slot g, some (slot, g) = except → w'.history (slot, g) = .cleaned →
      Safe w' slot g) : WorldInv w' := by
  refine ⟨?_, ?_, ?_, ?_, ?_, ?_⟩
  · rw [hdb]
    exact hw.wf
  · rw [hholders]
    exact hw.functional
  · rw [hdb, hholders]
    exact hw.current
  · rw [hdb, hholders]
    exact hw.past
  · intro slot g hcleaned
    by_cases hne : some (slot, g) = except
    · exact hexcept slot g hne hcleaned
    · rw [hagree.history _ hne] at hcleaned
      exact (hw.cleaned slot g hcleaned).agree hagree hne
  · rw [hevidence]
    exact fun row hrow hop hstatus => hagree.past _ (hw.evidence row hrow hop hstatus)

lemma agree_stage (w : World) (slot g : ℤ) : Agree (some (slot, g)) w (w.stage slot g) := by
  have htree : Agree (some (slot, g)) w (w.withTree slot (some
      { (w.trees slot).getD ⟨[], false, none⟩ with
        staged := g :: ((w.trees slot).getD ⟨[], false, none⟩).staged, complete := false })) := by
    refine agree_withTree fun g' hne hfree tree htree => ?_
    obtain rfl := Option.some.inj (trees_self.symm.trans htree)
    cases hold : w.trees slot with
    | none =>
      refine ⟨fun hmem => ?_, fun m hm => ?_⟩
      · rw [Option.getD_none, List.mem_singleton] at hmem
        exact hne hmem
      · rw [Option.getD_none] at hm
        cases hm
    | some tree₀ =>
      obtain ⟨hstaged, hmarker⟩ := hfree tree₀ hold
      refine ⟨fun hmem => ?_, hmarker⟩
      rcases List.mem_cons.mp hmem with heq | hmem
      · exact hne heq
      · exact hstaged hmem
  refine ⟨htree.tree, htree.launches, htree.processes, ?_, ?_, htree.holders⟩
  · intro o hne
    exact Function.update_of_ne (fun heq => hne (congrArg some heq)) ..
  · intro o hpast
    by_cases ho : o = (slot, g)
    · subst ho
      have hself : (w.stage slot g).history (slot, g) = (w.history (slot, g)).stage :=
        Function.update_self ..
      rw [hself]
      exact hpast.stage
    · have hother : (w.stage slot g).history o = w.history o := Function.update_of_ne ho ..
      rwa [hother]

lemma worldInv_stage (hw : WorldInv w) (slot g : ℤ) : WorldInv (w.stage slot g) := by
  refine hw.agree (agree_stage w slot g) rfl rfl rfl fun k g' heq hcleaned => ?_
  obtain ⟨rfl, rfl⟩ := Prod.mk.inj (Option.some.inj heq)
  have hself : (w.stage k g').history (k, g') = (w.history (k, g')).stage := Function.update_self ..
  rw [hself] at hcleaned
  exact absurd hcleaned (stage_ne_cleaned _)

lemma agree_complete {tree : Tree} (htree : w.trees slot = some tree) :
    Agree none w (w.withTree slot (some { tree with complete := true })) := by
  refine ⟨?_, fun _ _ _ h => h, fun _ _ _ _ h => h, fun _ _ => rfl, fun _ h => h, fun _ h => h⟩
  intro k g _ hfree tree' htree'
  by_cases hk : k = slot
  · subst hk
    obtain rfl := Option.some.inj (trees_self.symm.trans htree')
    exact hfree tree htree
  · exact hfree tree' ((trees_of_ne hk).symm.trans htree')

lemma agree_moved (w : World) (slot : ℤ) : Agree none w (w.withTree slot none) := by
  refine ⟨?_, fun _ _ _ h => h, fun _ _ _ _ h => h, fun _ _ => rfl, fun _ h => h, fun _ h => h⟩
  intro k g _ hfree tree' htree'
  by_cases hk : k = slot
  · subst hk
    have hself : none = some tree' := trees_self.symm.trans htree'
    cases hself
  · exact hfree tree' ((trees_of_ne hk).symm.trans htree')

lemma agree_marked {tree : Tree} (htree : w.trees slot = some tree) (u : String) :
    Agree (some (slot, g)) w
      (w.withTree slot (some { tree with marker := some ⟨u, slot, g⟩ })) := by
  refine agree_withTree fun g' hne hfree tree' htree' => ?_
  obtain rfl := Option.some.inj (trees_self.symm.trans htree')
  refine ⟨(hfree tree htree).1, fun m hm hboth => ?_⟩
  obtain rfl := Option.some.inj hm
  exact hne hboth.2.symm

lemma agree_launch (w : World) (slot g : ℤ) :
    Agree (some (slot, g)) w
      { w with launches := Function.update w.launches slot (g :: w.launches slot) } := by
  refine ⟨fun _ _ _ h => h, ?_, fun _ _ _ _ h => h, fun _ _ => rfl, fun _ h => h, fun _ h => h⟩
  intro k g' hne hnot hmem
  by_cases hk : k = slot
  · subst hk
    replace hmem : g' ∈ Function.update w.launches k (g :: w.launches k) k := hmem
    rw [Function.update_self] at hmem
    rcases List.mem_cons.mp hmem with heq | hmem
    · exact hne (by rw [heq])
    · exact hnot hmem
  · replace hmem : g' ∈ Function.update w.launches slot (g :: w.launches slot) k := hmem
    rw [Function.update_of_ne hk] at hmem
    exact hnot hmem

lemma agree_record (w : World) (ctx : Ctx) (stage : StageName) (status : Status) :
    Agree (some (ctx.slot, ctx.generation)) w (w.record ctx stage status) := by
  refine ⟨fun _ _ _ h => h, fun _ _ _ h => h, fun _ _ _ _ h => h, ?_, ?_, fun _ h => h⟩
  · intro o hne
    show (if _ then _ else _ : ℤ × ℤ → History) o = _
    split
    · exact Function.update_of_ne (fun heq => hne (congrArg some heq)) ..
    · rfl
  · intro o hpast
    show History.Past ((if _ then _ else _ : ℤ × ℤ → History) o)
    split
    · by_cases ho : o = (ctx.slot, ctx.generation)
      · subst ho
        rw [Function.update_self]
        exact .inl rfl
      · rwa [Function.update_of_ne ho]
    · exact hpast

lemma agree_record_of_not (w : World) (ctx : Ctx) {stage : StageName} {status : Status}
    (hnot : ¬ (stage = .verifyCleanup ∧ status = .completed)) :
    Agree none w (w.record ctx stage status) :=
  agree_of_eq rfl rfl rfl (if_neg hnot) fun _ h => h

lemma worldInv_record (hw : WorldInv w) (ctx : Ctx) (stage : StageName) (status : Status)
    (hsafe : stage = .verifyCleanup → status = .completed → Safe w ctx.slot ctx.generation) :
    WorldInv (w.record ctx stage status) := by
  have hagree := agree_record w ctx stage status
  refine ⟨hw.wf, hw.functional, hw.current, hw.past, ?_, ?_⟩
  · intro slot g hcleaned
    by_cases hdone : stage = .verifyCleanup ∧ status = .completed
    · by_cases ho : (slot, g) = (ctx.slot, ctx.generation)
      · obtain ⟨rfl, rfl⟩ := Prod.mk.inj ho
        obtain ⟨htree, hlaunches, hprocesses⟩ := hsafe hdone.1 hdone.2
        exact ⟨htree, hlaunches, hprocesses⟩
      · have hne : some (slot, g) ≠ some (ctx.slot, ctx.generation) := fun h => ho (Option.some.inj h)
        rw [hagree.history _ hne] at hcleaned
        exact (hw.cleaned slot g hcleaned).agree hagree hne
    · have hsame := agree_record_of_not w ctx hdone
      rw [hsame.history _ nofun] at hcleaned
      exact (hw.cleaned slot g hcleaned).agree hsame nofun
  · intro row hrow hop hstatus
    rcases List.mem_append.mp hrow with hrow | hrow
    · exact hagree.past _ (hw.evidence row hrow hop hstatus)
    · obtain rfl := List.mem_singleton.mp hrow
      refine .inl ?_
      show (if _ then _ else _ : ℤ × ℤ → History) (ctx.slot, ctx.generation) = _
      rw [if_pos ⟨hop, hstatus⟩, Function.update_self]

/-! ### Changes of the tables -/

/-- The tables change, and keep the slots. -/
lemma worldInv_kept {db' : Db} (hw : WorldInv w) (hkept : Kept w.db db') :
    WorldInv { w with db := db' } := by
  have hholds : ∀ {u slot g}, Holds db' u slot g → Holds w.db u slot g := fun h =>
    ⟨(hkept.occupant _).symm.trans h.1, (hkept.generationOf _).symm.trans h.2⟩
  refine ⟨hkept.wf hw.wf, hw.functional, fun slot g u h => hw.current slot g u (hholds h), ?_, ?_,
    hw.evidence⟩
  · intro slot g u hmem
    obtain ⟨g', hg', hpast⟩ := hw.past slot g u hmem
    refine ⟨g', (hkept.generationOf slot).trans hg', hpast.imp_right fun h => ⟨h.1, ?_⟩⟩
    exact (hkept.occupant slot).trans h.2
  · intro slot g hcleaned
    obtain ⟨htree, hlaunches, hprocesses⟩ := hw.cleaned slot g hcleaned
    exact ⟨htree, hlaunches, hprocesses⟩

lemma worldInv_lookup (hw : WorldInv w) (hholds : Holds w.db u slot g) :
    WorldInv { w with holders := (slot, g, u) :: w.holders } := by
  have hmem := hw.current slot g u hholds
  refine ⟨hw.wf, ?_, fun slot g u h => List.mem_cons_of_mem _ (hw.current slot g u h), ?_, ?_,
    hw.evidence⟩
  · intro k g' u₁ u₂ h₁ h₂
    have hold : ∀ {u'}, (k, g', u') ∈ (slot, g, u) :: w.holders → (k, g', u') ∈ w.holders := by
      intro u' h
      rcases List.mem_cons.mp h with heq | h
      · rw [heq]
        exact hmem
      · exact h
    exact hw.functional k g' u₁ u₂ (hold h₁) (hold h₂)
  · intro k g' u' h
    rcases List.mem_cons.mp h with heq | h
    · obtain ⟨rfl, hrest⟩ := Prod.mk.inj heq
      obtain ⟨rfl, rfl⟩ := Prod.mk.inj hrest
      exact hw.past _ _ _ hmem
    · exact hw.past k g' u' h
  · intro k g' hcleaned
    obtain ⟨htree, hlaunches, hprocesses⟩ := hw.cleaned k g' hcleaned
    exact ⟨htree, hlaunches, hprocesses⟩

lemma worldInv_took {db' : Db} (hw : WorldInv w) (htook : Took w.db db' slot u g) :
    WorldInv { w with db := db', holders := (slot, g, u) :: w.holders } := by
  -- earlier occupancies of the slot have earlier generations
  have hbefore : ∀ g' u', (slot, g', u') ∈ w.holders →
      g' < g ∧ w.db.generationOf slot = some g := by
    intro g' u' hmem
    obtain ⟨g₀, hg₀, hpast⟩ := hw.past slot g' u' hmem
    have hg : g₀ = g := by
      have hgen := htook.generation
      rwa [hg₀, Option.getD_some] at hgen
    rcases hpast with hlt | ⟨-, hocc⟩
    · exact ⟨hg ▸ hlt, hg ▸ hg₀⟩
    · rw [htook.free] at hocc
      cases hocc
  refine ⟨htook.wf hw.wf, ?_, ?_, ?_, ?_, hw.evidence⟩
  · intro k g' u₁ u₂ h₁ h₂
    rcases List.mem_cons.mp h₁ with heq₁ | hold₁
    · obtain ⟨rfl, hrest⟩ := Prod.mk.inj heq₁
      obtain ⟨rfl, rfl⟩ := Prod.mk.inj hrest
      rcases List.mem_cons.mp h₂ with heq₂ | hold₂
      · exact (Prod.mk.inj (Prod.mk.inj heq₂).2).2.symm
      · exact absurd (hbefore _ _ hold₂).1 (lt_irrefl _)
    · rcases List.mem_cons.mp h₂ with heq₂ | hold₂
      · obtain ⟨rfl, hrest⟩ := Prod.mk.inj heq₂
        obtain ⟨rfl, rfl⟩ := Prod.mk.inj hrest
        exact absurd (hbefore _ _ hold₁).1 (lt_irrefl _)
      · exact hw.functional k g' u₁ u₂ hold₁ hold₂
  · intro k g' u' hholds
    by_cases hk : k = slot
    · subst hk
      obtain ⟨rfl, rfl⟩ := hholds.unique htook.holds
      exact List.mem_cons_self
    · refine List.mem_cons_of_mem _ (hw.current k g' u' ?_)
      have hrow := htook.others k hk
      exact ⟨by rw [Db.occupant, ← hrow]; exact hholds.1, by rw [Db.generationOf, ← hrow]; exact hholds.2⟩
  · intro k g' u' hmem
    rcases List.mem_cons.mp hmem with heq | hold
    · obtain ⟨rfl, hrest⟩ := Prod.mk.inj heq
      obtain ⟨rfl, rfl⟩ := Prod.mk.inj hrest
      exact ⟨g', htook.holds.2, .inr ⟨rfl, htook.holds.1⟩⟩
    · by_cases hk : k = slot
      · subst hk
        exact ⟨g, htook.holds.2, .inl (hbefore g' u' hold).1⟩
      · obtain ⟨g₀, hg₀, hpast⟩ := hw.past k g' u' hold
        have hrow := htook.others k hk
        refine ⟨g₀, ?_, hpast.imp_right fun h => ⟨h.1, ?_⟩⟩
        · rw [Db.generationOf, hrow]
          exact hg₀
        · rw [Db.occupant, hrow]
          exact h.2
  · intro k g' hcleaned
    obtain ⟨htree, hlaunches, hprocesses⟩ := hw.cleaned k g' hcleaned
    exact ⟨htree, hlaunches, hprocesses⟩

lemma worldInv_freed {db' : Db} (hw : WorldInv w) (hfreed : Freed w.db db' slot u g) :
    WorldInv { w with db := db' } := by
  refine ⟨hfreed.wf hw.wf, hw.functional, ?_, ?_, ?_, hw.evidence⟩
  · intro k g' u' hholds
    by_cases hk : k = slot
    · have hocc := hholds.1
      rw [hk, hfreed.free] at hocc
      cases hocc
    · have hrow := hfreed.others k hk
      exact hw.current k g' u'
        ⟨by rw [Db.occupant, ← hrow]; exact hholds.1, by rw [Db.generationOf, ← hrow]; exact hholds.2⟩
  · intro k g' u' hmem
    obtain ⟨g₀, hg₀, hpast⟩ := hw.past k g' u' hmem
    by_cases hk : k = slot
    · subst hk
      obtain rfl := Option.some.inj (hg₀.symm.trans hfreed.holds.2)
      refine ⟨g₀ + 1, hfreed.generation, .inl ?_⟩
      rcases hpast with hlt | ⟨rfl, -⟩ <;> omega
    · have hrow := hfreed.others k hk
      refine ⟨g₀, ?_, hpast.imp_right fun h => ⟨h.1, ?_⟩⟩
      · rw [Db.generationOf, hrow]
        exact hg₀
      · rw [Db.occupant, hrow]
        exact h.2
  · intro k g' hcleaned
    obtain ⟨htree, hlaunches, hprocesses⟩ := hw.cleaned k g' hcleaned
    exact ⟨htree, hlaunches, hprocesses⟩

/-! ### Each step keeps what holds -/

lemma fits_next {ctx : Option Ctx} (hw : WorldInv w) (ht : ThreadInv w (t.goOn rest ctx)) :
    (Result.next w ctx).Fits w t rest := ⟨rfl, hw, Agree.refl _ _, ht⟩

lemma fits_refuse (hw : WorldInv w) : (Result.refuse w).Fits w t rest := ⟨rfl, hw, Agree.refl _ _⟩

lemma fits_quarantine (hw : WorldInv w) (slot : ℤ) (reason : String) (now : ℤ) :
    (Result.refuse { w with db := (w.db.apply poolSize (.quarantineSlot slot reason now)).1 }).Fits
      w t rest :=
  ⟨rfl, worldInv_kept hw (SlotStore.apply_kept hw.wf _ rfl nofun),
    agree_of_eq rfl rfl rfl rfl fun _ h => h⟩

lemma touches_of {op' : PoolOp} (hop : t.op = op') (hmutating : op'.mutating = true)
    (hctx : t.ctx = some ctx) : t.touches = some (ctx.slot, ctx.generation) := by
  rw [Thread.touches, hop, if_pos hmutating, hctx]
  rfl

lemma processes_of_absent {seen : Observation} (h : w.observation slot seen = .absent) :
    w.processes slot = [] := by
  unfold World.observation at h
  cases seen with
  | absent =>
    by_contra hne
    rw [if_neg hne] at h
    cases h
  | presentValid =>
    simp only at h
    split at h <;> cases h
  | unclear => cases h

lemma past_of_lastStatus (hw : WorldInv w)
    (h : lastStatus (w.evidenceOf slot g) .verifyCleanup = some .completed) :
    (w.history (slot, g)).Past := by
  obtain ⟨row, hfind, hstatus⟩ := Option.map_eq_some_iff.mp h
  have hmem := List.mem_reverse.mp (List.mem_of_find?_eq_some hfind)
  have hop : row.operation = .verifyCleanup := by simpa using List.find?_some hfind
  obtain ⟨hrow, hsame⟩ := List.mem_filter.mp hmem
  obtain ⟨rfl, rfl⟩ := of_decide_eq_true hsame
  exact hw.evidence row hrow hop hstatus

section Steps

variable (hw : WorldInv w) (ht : ThreadInv w t) (hctx : t.ctx = some ctx)
include hw ht hctx

lemma fits_readMarker (hphase : t.phase = .running (.readMarker :: rest)) :
    (execBound poolSize w t.op t.runtime ctx input .readMarker).Fits w t rest := by
  refine fits_next hw (ht.step (Agree.refl none w) hphase hctx rfl rfl ?_ ?_ ?_ ?_ ?_)
  · intro hop
    obtain ⟨htree, hlaunches, hprocesses⟩ := ht.looked _ hphase hop ctx hctx
    exact ⟨htree, hlaunches, hprocesses⟩
  · exact fun hop hcleaned hnone htag => ht.staging_of hphase hctx nofun hop hcleaned hnone htag
  · intro hop hcleaned
    refine ⟨fun hmarker => ?_, (ht.starting_of hphase hctx nofun hop hcleaned).2⟩
    obtain ⟨tree, htree, hm⟩ := Option.bind_eq_some_iff.mp hmarker
    exact ((hw.cleaned _ _ hcleaned).tree tree htree).2 _ hm ⟨rfl, rfl⟩
  · exact fun h => ht.read ctx hctx h
  · intro hop hnot
    have hread : ctx.cleanup = true := ht.cleanup_of hphase hctx nofun hop hnot
    exact hread

lemma fits_gate (hphase : t.phase = .running (.gate :: rest)) :
    (execBound poolSize w t.op t.runtime ctx input .gate).Fits w t rest := by
  -- a start passes the gate with its own marker only
  have hpass : (t.op = .start → ctx.markerRaw = some ⟨t.runtime, ctx.slot, ctx.generation⟩) →
      (Result.next w (some ctx)).Fits w t rest := by
    intro hown
    refine fits_next hw (ht.step (Agree.refl none w) hphase hctx rfl rfl ?_ ?_ ?_ ?_ ?_)
    · exact fun hop => ht.looked _ hphase hop ctx hctx
    · exact fun hop hcleaned hnone htag => ht.staging_of hphase hctx nofun hop hcleaned hnone htag
    · exact fun hop hcleaned => absurd (hown hop) (ht.starting _ hphase hop ctx hctx hcleaned).1
    · exact fun h => ht.read ctx hctx h
    · exact fun hop hnot => ht.cleanup_of hphase hctx nofun hop hnot
  have hmarked : (assertOccupancyIntegrity poolSize w t.runtime ctx input.now).Fits w t rest := by
    unfold assertOccupancyIntegrity
    split
    · exact fits_refuse hw
    split
    · rename_i hagree
      exact hpass fun _ => hagree.1
    · exact fits_quarantine hw _ _ _
  have hunmarked : ∀ agree, t.op ≠ .start → (gateWithoutMarker w ctx agree).Fits w t rest := by
    intro agree hop
    unfold gateWithoutMarker
    split
    · exact fits_refuse hw
    split
    · exact hpass fun h => absurd h hop
    · exact fits_refuse hw
  show (gate poolSize w t.op t.runtime ctx input.now).Fits w t rest
  unfold gate
  split
  · rename_i hop _
    exact hunmarked _ (by rw [hop]; nofun)
  · rename_i hop _
    exact hunmarked _ (by rw [hop]; nofun)
  · exact hmarked

lemma fits_copy (hphase : t.phase = .running (.copy :: rest)) :
    (execBound poolSize w t.op t.runtime ctx input .copy).Fits w t rest := by
  have hop : t.op = .materialise := op_eq_of_home (ht.suffix _ hphase) rfl
  -- a copy that does not begin has a status
  have hidle : ∀ ctx' : Ctx, ctx'.slot = ctx.slot → ctx'.generation = ctx.generation →
      ctx'.cleanup = ctx.cleanup → ctx'.status ≠ none → ThreadInv w (t.goOn rest (some ctx')) := by
    intro ctx' hslot hgeneration hcleanup hstatus
    refine ht.step (Agree.refl none w) hphase hctx hslot hgeneration (fun h => ?_)
      (fun _ _ h => absurd h hstatus) (fun h => ?_) ?_ fun h => ?_
    · rw [hop] at h; cases h
    · rw [hop] at h; cases h
    · exact fun h => ht.read ctx hctx (hcleanup ▸ h)
    · rw [hop] at h; cases h
  simp only [execBound]
  split
  · rename_i hsome
    exact fits_next hw (hidle ctx rfl rfl rfl (Option.isSome_iff_ne_none.mp hsome))
  split
  · exact fits_next hw (hidle _ rfl rfl rfl nofun)
  · have hagree := agree_stage w ctx.slot ctx.generation
    refine ⟨rfl, worldInv_stage hw _ _, touches_of hop rfl hctx ▸ hagree, ?_⟩
    refine ht.step hagree hphase hctx rfl rfl (fun h => ?_) (fun _ hcleaned => ?_) (fun h => ?_) ?_
      fun h => ?_
    · rw [hop] at h; cases h
    · have hself : (w.stage ctx.slot ctx.generation).history (ctx.slot, ctx.generation) =
          (w.history (ctx.slot, ctx.generation)).stage := Function.update_self ..
      rw [hself] at hcleaned
      exact absurd hcleaned (stage_ne_cleaned _)
    · rw [hop] at h; cases h
    · exact fun h => hagree.past _ (ht.read ctx hctx h)
    · rw [hop] at h; cases h

lemma fits_copyEnd (hphase : t.phase = .running (.copyEnd :: rest)) :
    (execBound poolSize w t.op t.runtime ctx input .copyEnd).Fits w t rest := by
  have hp : Prim.copyEnd ≠ .copy ∧ Prim.copyEnd ≠ .gate ∧ Prim.copyEnd ≠ .checkProofs := by decide
  simp only [execBound]
  split
  · exact fits_next hw (ht.same hphase hctx hp)
  split
  · rename_i tree htree
    split
    · have hagree := agree_complete htree
      have hw' : WorldInv (w.withTree ctx.slot (some { tree with complete := true })) :=
        hw.agree hagree rfl rfl rfl fun _ _ h => (by cases h)
      have ht' := ht.agree hagree fun _ _ _ _ _ h => (by cases h)
      exact ⟨rfl, hw', hagree.weaken _, ht'.same hphase hctx hp⟩
    · exact fits_next hw (ht.decided hphase hctx hp _)
  · exact fits_next hw (ht.decided hphase hctx hp _)

lemma fits_writeOwnerTag (hphase : t.phase = .running (.writeOwnerTag :: rest)) :
    (execBound poolSize w t.op t.runtime ctx input .writeOwnerTag).Fits w t rest := by
  have hop : t.op = .materialise := op_eq_of_home (ht.suffix _ hphase) rfl
  have hp : Prim.writeOwnerTag ≠ .copy ∧ Prim.writeOwnerTag ≠ .gate ∧
      Prim.writeOwnerTag ≠ .checkProofs := by decide
  simp only [execBound]
  split
  · exact fits_next hw (ht.same hphase hctx hp)
  rename_i hsome
  split
  · rename_i tree htree
    split
    · -- the copy has begun, so no cleanup is the last word on the occupancy
      have hne : w.history (ctx.slot, ctx.generation) ≠ .cleaned := by
        intro hcleaned
        have hnone : ctx.status = none := by simpa using hsome
        have hmem := ht.staging _ hphase hop ctx hctx hcleaned hnone List.mem_cons_self
        rcases List.mem_cons.mp hmem with h | h
        · cases h
        · exact copy_notMem_of_tag (ht.suffix _ hphase) h
      have hagree := agree_marked (g := ctx.generation) htree t.runtime
      refine ⟨rfl, ?_, touches_of hop rfl hctx ▸ hagree, ?_⟩
      · refine hw.agree hagree rfl rfl rfl fun k g heq hcleaned => ?_
        obtain ⟨rfl, rfl⟩ := Prod.mk.inj (Option.some.inj heq)
        exact absurd hcleaned hne
      · refine ht.step hagree hphase hctx rfl rfl (fun h => ?_) (fun _ h => absurd h hne)
          (fun h => ?_) ?_ fun h => ?_
        · rw [hop] at h; cases h
        · rw [hop] at h; cases h
        · exact fun h => ht.read ctx hctx h
        · rw [hop] at h; cases h
    · exact fits_next hw (ht.decided hphase hctx hp _)
  · exact fits_next hw (ht.decided hphase hctx hp _)

lemma fits_record {stage : StageName} (hphase : t.phase = .running (.record stage :: rest)) :
    (execBound poolSize w t.op t.runtime ctx input (.record stage)).Fits w t rest := by
  obtain ⟨hstage, htag⟩ := tag_notMem_of_record (ht.suffix _ hphase)
  have hp : Prim.record stage ≠ .copy ∧ Prim.record stage ≠ .gate ∧
      Prim.record stage ≠ .checkProofs := ⟨nofun, nofun, nofun⟩
  simp only [execBound]
  split
  · rename_i status _
    have hagree : Agree none w (w.record ctx stage status) :=
      agree_record_of_not w ctx fun h => hstage h.1
    have hw' := worldInv_record hw ctx stage status fun h => absurd h hstage
    have ht' := ht.agree hagree fun _ _ _ _ _ h => (by cases h)
    unfold recordStage
    split
    · refine ⟨rfl, hw', hagree.weaken _, ?_⟩
      refine ht'.plain hphase hctx rfl rfl rfl rfl hp (fun hop => ?_) fun _ h => absurd h htag
      obtain ⟨htree, hlaunches, hprocesses⟩ := ht'.looked _ hphase hop ctx hctx
      exact ⟨htree, hlaunches, hprocesses⟩
    · exact ⟨rfl, hw', hagree⟩
  · exact fits_refuse hw

lemma fits_triggerLaunch (hphase : t.phase = .running (.triggerLaunch :: rest)) :
    (execBound poolSize w t.op t.runtime ctx input .triggerLaunch).Fits w t rest := by
  have hop : t.op = .start := op_eq_of_home (ht.suffix _ hphase) rfl
  have hp : Prim.triggerLaunch ≠ .copy ∧ Prim.triggerLaunch ≠ .gate ∧
      Prim.triggerLaunch ≠ .checkProofs := by decide
  -- the gate is passed, so no cleanup is the last word on the occupancy
  have hne : w.history (ctx.slot, ctx.generation) ≠ .cleaned := by
    intro hcleaned
    have hmem := (ht.starting _ hphase hop ctx hctx hcleaned).2 List.mem_cons_self
    rcases List.mem_cons.mp hmem with h | h
    · cases h
    · exact gate_notMem_of_trigger (ht.suffix _ hphase) h
  simp only [execBound]
  by_cases hlaunch : (input.ok || input.effect) = true
  · rw [if_pos hlaunch]
    have hagree := agree_launch w ctx.slot ctx.generation
    refine ⟨rfl, ?_, touches_of hop rfl hctx ▸ hagree, ?_⟩
    · refine hw.agree hagree rfl rfl rfl fun k g heq hcleaned => ?_
      obtain ⟨rfl, rfl⟩ := Prod.mk.inj (Option.some.inj heq)
      exact absurd hcleaned hne
    · refine ht.step hagree hphase hctx rfl rfl (fun h => ?_) (fun h => ?_)
        (fun _ h => absurd h hne) ?_ fun h => ?_
      · rw [hop] at h; cases h
      · rw [hop] at h; cases h
      · exact fun h => ht.read ctx hctx h
      · rw [hop] at h; cases h
  · rw [if_neg hlaunch]
    exact fits_next hw (ht.decided hphase hctx hp _)

lemma fits_lookDirectory (hphase : t.phase = .running (.lookDirectory :: rest)) :
    (execBound poolSize w t.op t.runtime ctx input .lookDirectory).Fits w t rest := by
  have hp : Prim.lookDirectory ≠ .copy ∧ Prim.lookDirectory ≠ .gate ∧
      Prim.lookDirectory ≠ .checkProofs := by decide
  refine fits_next hw (ht.plain hphase hctx rfl rfl rfl rfl hp (fun _ => ?_) fun h _ => .inl h)
  refine ⟨fun hempty tree htree => ?_, fun h => (by cases h), fun h => (by cases h)⟩
  replace hempty : (w.trees ctx.slot).isNone = true := hempty
  replace htree : w.trees ctx.slot = some tree := htree
  rw [htree] at hempty
  cases hempty

lemma fits_lookTasks (hphase : t.phase = .running (.lookTasks :: rest)) :
    (execBound poolSize w t.op t.runtime ctx input .lookTasks).Fits w t rest := by
  have hp : Prim.lookTasks ≠ .copy ∧ Prim.lookTasks ≠ .gate ∧
      Prim.lookTasks ≠ .checkProofs := by decide
  refine fits_next hw (ht.plain hphase hctx rfl rfl rfl rfl hp (fun hop => ?_) fun h _ => .inl h)
  refine ⟨(ht.looked _ hphase hop ctx hctx).tree, fun hnone => ?_, fun _ h => (by cases h)⟩
  have hempty : (w.launches ctx.slot).isEmpty = true := (Bool.and_eq_true_iff.mp hnone).2
  show ctx.generation ∉ w.launches ctx.slot
  rw [List.isEmpty_iff.mp hempty]
  exact List.not_mem_nil

lemma fits_lookProcess (hphase : t.phase = .running (.lookProcess :: rest)) :
    (execBound poolSize w t.op t.runtime ctx input .lookProcess).Fits w t rest := by
  have hp : Prim.lookProcess ≠ .copy ∧ Prim.lookProcess ≠ .gate ∧
      Prim.lookProcess ≠ .checkProofs := by decide
  refine fits_next hw (ht.plain hphase hctx rfl rfl rfl rfl hp (fun hop => ?_) fun h _ => .inl h)
  obtain ⟨htree, hlaunches, -⟩ := ht.looked _ hphase hop ctx hctx
  refine ⟨htree, hlaunches, fun _ habsent => ?_⟩
  show ctx.generation ∉ w.processes ctx.slot
  rw [processes_of_absent (of_decide_eq_true habsent)]
  exact List.not_mem_nil

lemma fits_recordProofs {stage : StageName} (hphase : t.phase = .running (.recordProofs stage :: rest)) :
    (execBound poolSize w t.op t.runtime ctx input (.recordProofs stage)).Fits w t rest := by
  have hop : t.op = .tombstone := op_eq_of_home (ht.suffix _ hphase) rfl
  have hlooked := ht.looked _ hphase hop ctx hctx
  have hagree := agree_record w ctx stage (ctx.proofStatus stage)
  have hw' : WorldInv (w.record ctx stage (ctx.proofStatus stage)) := by
    refine worldInv_record hw ctx stage _ fun hstage hstatus => ?_
    have hproofs : (ctx.slotDirectoryEmpty && (ctx.noTaskRunning && ctx.noRuntimeProcess &&
        ctx.noRuntimeHandles)) = true := by
      by_contra hnot
      simp only [Ctx.proofStatus, if_pos hstage, if_neg hnot] at hstatus
      cases hstatus
    simp only [Bool.and_eq_true] at hproofs
    obtain ⟨hempty, ⟨htasks, hprocess⟩, -⟩ := hproofs
    exact ⟨hlooked.tree hempty, hlooked.launches htasks, hlooked.processes htasks hprocess⟩
  show (recordStage w ctx stage (ctx.proofStatus stage)).Fits w t rest
  unfold recordStage
  split
  · refine ⟨rfl, hw', touches_of hop rfl hctx ▸ hagree, ?_⟩
    refine ht.step hagree hphase hctx rfl rfl (fun _ => ?_) (fun h => ?_) (fun h => ?_) ?_ fun h => ?_
    · obtain ⟨htree, hlaunches, hprocesses⟩ := hlooked
      exact ⟨htree, hlaunches, hprocesses⟩
    · rw [hop] at h; cases h
    · rw [hop] at h; cases h
    · exact fun h => hagree.past _ (ht.read ctx hctx h)
    · rw [hop] at h; cases h
  · rename_i haccepts
    refine ⟨rfl, hw', agree_record_of_not w ctx fun h => haccepts ?_⟩
    rw [h.2, h.1]
    rfl

lemma fits_moveDir (hphase : t.phase = .running (.moveDir :: rest)) :
    (execBound poolSize w t.op t.runtime ctx input .moveDir).Fits w t rest := by
  have hp : Prim.moveDir ≠ .copy ∧ Prim.moveDir ≠ .gate ∧ Prim.moveDir ≠ .checkProofs := by decide
  simp only [execBound]
  split
  · exact fits_next hw (ht.same hphase hctx hp)
  by_cases hmoved : (input.ok || input.effect) = true
  · rw [if_pos hmoved]
    have hagree := agree_moved w ctx.slot
    have hw' : WorldInv (w.withTree ctx.slot none) :=
      hw.agree hagree rfl rfl rfl fun _ _ h => (by cases h)
    have ht' := ht.agree hagree fun _ _ _ _ _ h => (by cases h)
    exact ⟨rfl, hw', hagree.weaken _, ht'.decided hphase hctx hp _⟩
  · rw [if_neg hmoved]
    exact fits_next hw (ht.decided hphase hctx hp _)

lemma fits_readEvidence (hphase : t.phase = .running (.readEvidence :: rest)) :
    (execBound poolSize w t.op t.runtime ctx input .readEvidence).Fits w t rest := by
  have hop : t.op = .release := op_eq_of_home (ht.suffix _ hphase) rfl
  refine fits_next hw (ht.step (Agree.refl none w) hphase hctx rfl rfl (fun h => ?_) (fun h => ?_)
    (fun h => ?_) (fun hread => ?_) fun _ hnot => ?_)
  · rw [hop] at h; cases h
  · rw [hop] at h; cases h
  · rw [hop] at h; cases h
  · exact past_of_lastStatus hw (of_decide_eq_true hread)
  · exact absurd (checkProofs_mem_of_readEvidence (ht.suffix _ hphase)) hnot

lemma fits_checkProofs (hphase : t.phase = .running (.checkProofs :: rest)) :
    (execBound poolSize w t.op t.runtime ctx input .checkProofs).Fits w t rest := by
  have hop : t.op = .release := op_eq_of_home (ht.suffix _ hphase) rfl
  simp only [execBound]
  split
  · rename_i hproofs
    refine fits_next hw (ht.step (Agree.refl none w) hphase hctx rfl rfl (fun h => ?_) (fun h => ?_)
      (fun h => ?_) (fun h => ht.read ctx hctx h) fun _ _ => ?_)
    · rw [hop] at h; cases h
    · rw [hop] at h; cases h
    · rw [hop] at h; cases h
    · -- a proof that is missing is the one of the cleanup
      by_contra hcleanup
      have hmem := hproofs "tombstone_evidence_persisted" (by decide)
      rw [Ctx.proofs, if_neg hcleanup] at hmem
      cases hmoved : ctx.moved with
      | true => rw [hmoved] at hmem; revert hmem; decide
      | false => rw [hmoved] at hmem; revert hmem; decide
  · exact fits_refuse hw

lemma fits_advance (hphase : t.phase = .running (.advance :: rest)) :
    (execBound poolSize w t.op t.runtime ctx input .advance).Fits w t rest := by
  have hp : Prim.advance ≠ .copy ∧ Prim.advance ≠ .gate ∧ Prim.advance ≠ .checkProofs := by decide
  simp only [execBound]
  split
  · rename_i db g happly
    have hfreed := SlotStore.apply_advance hw.wf happly
    have hagree : Agree none w { w with db := db } := agree_of_eq rfl rfl rfl rfl fun _ h => h
    have ht' := ht.agree hagree fun _ _ _ _ _ h => (by cases h)
    exact ⟨rfl, worldInv_freed hw hfreed, hagree.weaken _, ht'.same hphase hctx hp⟩
  · rename_i db answer hnot happly
    have hagree : Agree none w { w with db := db } := agree_of_eq rfl rfl rfl rfl fun _ h => h
    refine ⟨rfl, ?_, hagree⟩
    obtain rfl := SlotStore.apply_advance_refused happly fun g h => hnot g h
    exact hw

/-- Each step of a program, after the slot is known. -/
lemma fits_bound (hphase : t.phase = .running (p :: rest)) :
    (execBound poolSize w t.op t.runtime ctx input p).Fits w t rest := by
  have hplain : p ≠ .copy ∧ p ≠ .gate ∧ p ≠ .checkProofs →
      (Result.next w (some ctx)).Fits w t rest := fun hp => fits_next hw (ht.same hphase hctx hp)
  have hdecided : p ≠ .copy ∧ p ≠ .gate ∧ p ≠ .checkProofs → ∀ status,
      (Result.next w (some { ctx with status := some status })).Fits w t rest := fun hp status =>
    fits_next hw (ht.decided hphase hctx hp status)
  have hfinish : p ≠ .copy ∧ p ≠ .gate ∧ p ≠ .checkProofs →
      (Result.finish w (some ctx)).Fits w t rest := fun hp =>
    ⟨rfl, hw, Agree.refl _ _, ht.same hphase hctx hp⟩
  cases p with
  | lock | resolve => exact fits_refuse hw
  | readMarker => exact fits_readMarker hw ht hctx hphase
  | gate => exact fits_gate hw ht hctx hphase
  | precheckCopy =>
    refine fits_next hw (ht.plain hphase hctx rfl rfl rfl rfl (by decide) (fun hop => ?_) fun _ _ =>
      .inr (copy_mem_of_precheck (ht.suffix _ hphase)))
    obtain ⟨htree, hlaunches, hprocesses⟩ := ht.looked _ hphase hop ctx hctx
    exact ⟨htree, hlaunches, hprocesses⟩
  | copy => exact fits_copy hw ht hctx hphase
  | copyEnd => exact fits_copyEnd hw ht hctx hphase
  | writeOwnerTag => exact fits_writeOwnerTag hw ht hctx hphase
  | postCheck =>
    simp only [execBound]
    split
    · exact hplain (by decide)
    · exact hdecided (by decide) _
  | record stage => exact fits_record hw ht hctx hphase
  | writeCommonIni | assertEvidence =>
    simp only [execBound]
    split
    · exact hplain (by decide)
    · exact fits_refuse hw
  | observeIdle =>
    simp only [execBound]
    split
    · exact hfinish (by decide)
    · exact hplain (by decide)
    · exact fits_refuse hw
  | checkTask | confirmLaunch | triggerTerminate | confirmTerminated => exact hdecided (by decide) _
  | triggerLaunch => exact fits_triggerLaunch hw ht hctx hphase
  | lookDirectory => exact fits_lookDirectory hw ht hctx hphase
  | lookTasks => exact fits_lookTasks hw ht hctx hphase
  | lookProcess => exact fits_lookProcess hw ht hctx hphase
  | lookHandles =>
    refine fits_next hw (ht.plain hphase hctx rfl rfl rfl rfl (by decide) (fun hop => ?_)
      fun h _ => .inl h)
    obtain ⟨htree, hlaunches, hprocesses⟩ := ht.looked _ hphase hop ctx hctx
    exact ⟨htree, hlaunches, hprocesses⟩
  | recordProofs stage => exact fits_recordProofs hw ht hctx hphase
  | precheckMove =>
    have hop : t.op = .tombstone := op_eq_of_home (ht.suffix _ hphase) rfl
    refine fits_next hw (ht.step (Agree.refl none w) hphase hctx rfl rfl (fun _ => ?_) (fun h => ?_)
      (fun h => ?_) (fun h => ht.read ctx hctx h) fun h => ?_)
    · obtain ⟨htree, hlaunches, hprocesses⟩ := ht.looked _ hphase hop ctx hctx
      exact ⟨htree, hlaunches, hprocesses⟩
    · rw [hop] at h; cases h
    · rw [hop] at h; cases h
    · rw [hop] at h; cases h
  | moveDir => exact fits_moveDir hw ht hctx hphase
  | observeAbsent | checkMonotonic =>
    simp only [execBound]
    split
    · exact hplain (by decide)
    · exact fits_refuse hw
  | auditCheckpoint =>
    simp only [execBound]
    split
    · exact hplain (by decide)
    · exact fits_quarantine hw _ _ _
  | readEvidence => exact fits_readEvidence hw ht hctx hphase
  | checkProofs => exact fits_checkProofs hw ht hctx hphase
  | checkQuarantine =>
    simp only [execBound]
    split
    · exact fits_refuse hw
    · exact hplain (by decide)
  | advance => exact fits_advance hw ht hctx hphase
  | observe =>
    simp only [execBound]
    split
    · exact fits_refuse hw
    · exact hfinish (by decide)

end Steps

lemma threadInv_resolved (ht : ThreadInv w t) (hphase : t.phase = .running (.resolve :: rest))
    (hagree : Agree none w w') (hmem : (slot, g, t.runtime) ∈ w'.holders) :
    ThreadInv w' (t.goOn rest (some { slot, generation := g })) := by
  have hsuffix := ht.suffix _ hphase
  have hrest : ∀ {todo}, (t.goOn rest (some { slot, generation := g })).phase = .running todo →
      rest = todo := fun h => Phase.running.inj h
  have hposition := position_resolve hsuffix
  refine ⟨?_, fun _ _ => lock_notMem hsuffix, ?_, ?_, ?_, ?_, ?_, ?_⟩
  · intro todo h
    obtain rfl := hrest h
    exact (List.suffix_cons _ rest).trans hsuffix
  · rintro _ ⟨⟩
    exact hmem
  · rintro _ _ _ _ ⟨⟩
    exact ⟨fun h => (by cases h), fun h => (by cases h), fun h => (by cases h)⟩
  · rintro todo h - _ ⟨⟩ - - htag
    obtain rfl := hrest h
    exact hposition.1 htag
  · rintro todo h - _ ⟨⟩ -
    obtain rfl := hrest h
    exact ⟨nofun, hposition.2.1⟩
  · rintro _ ⟨⟩ h
    cases h
  · intro todo h hop hnot
    obtain rfl := hrest h
    exact absurd (hposition.2.2 hop) hnot

lemma fits_resolve (hw : WorldInv w) (ht : ThreadInv w t)
    (hphase : t.phase = .running (.resolve :: rest)) (now : ℤ) :
    (resolve poolSize w t.op t.runtime now).Fits w t rest := by
  unfold resolve
  split
  · split
    · exact fits_refuse hw
    split
    · rename_i db slot g happly
      have hagree : Agree none w { w with db, holders := (slot, g, t.runtime) :: w.holders } :=
        agree_of_eq rfl rfl rfl rfl fun _ h => List.mem_cons_of_mem _ h
      have hw' : WorldInv { w with db, holders := (slot, g, t.runtime) :: w.holders } := by
        rcases SlotStore.apply_assign hw.wf happly with ⟨rfl, hholds⟩ | htook
        · exact worldInv_lookup hw hholds
        · exact worldInv_took hw htook
      exact ⟨rfl, hw', hagree.weaken _,
        threadInv_resolved ht hphase hagree List.mem_cons_self⟩
    · rename_i db answer hnot happly
      obtain rfl := SlotStore.apply_assign_refused happly fun slot g h => hnot slot g h
      exact fits_refuse hw
  · split
    · rename_i row hrow
      have hholds := SlotStore.holds_of_slotOf hrow
      have hagree : Agree none w
          { w with holders := (row.slot, row.generation, t.runtime) :: w.holders } :=
        agree_of_eq rfl rfl rfl rfl fun _ h => List.mem_cons_of_mem _ h
      exact ⟨rfl, worldInv_lookup hw hholds, hagree.weaken _,
        threadInv_resolved ht hphase hagree List.mem_cons_self⟩
    · exact fits_refuse hw

/-! ### The locks -/

def holdsAt : Option Thread → String → Prop
  | some t, r => t.op.mutating = true ∧ t.runtime = r ∧
    match t.phase with
    | .running todo => .lock ∉ todo
    | .over _ => True
    | .answered _ => False
  | none, _ => False

/-- What holds in every run. -/
structure Inv (s : State) : Prop where
  world : WorldInv s.world
  threads : ∀ id t, s.threads id = some t → ThreadInv s.world t
  held : Locks.Held (fun id => holdsAt (s.threads id)) s.world.locks.perRuntime

lemma inv_initial (poolSize : SlotStore.PoolSize) : Inv (.initial poolSize) where
  world :=
    { wf := SlotStore.wf_initial
      functional := fun _ _ _ _ h => (by cases h)
      current := fun _ _ _ h => (by cases h.1)
      past := fun _ _ _ h => (by cases h)
      cleaned := fun _ _ h => (by cases h)
      evidence := fun _ h => (by cases h) }
  threads := fun _ _ h => (by cases h)
  held := Locks.held_free

/-- Only one request under way that changes the host has to do with an occupancy. -/
lemma Inv.alone (hs : Inv s) {c c' : Ctx} {todo todo' : List Prim} (ht : s.threads id = some t)
    (ht' : s.threads id' = some t') (hc : t.ctx = some c) (hc' : t'.ctx = some c')
    (hop : t.op.mutating = true) (hop' : t'.op.mutating = true) (hphase : t.phase = .running todo)
    (hphase' : t'.phase = .running todo')
    (hsame : (c.slot, c.generation) = (c'.slot, c'.generation)) : id = id' := by
  have hinv := hs.threads id t ht
  have hinv' := hs.threads id' t' ht'
  have hholder := hinv.holder c hc
  have hholder' := hinv'.holder c' hc'
  obtain ⟨hslot, hgeneration⟩ := Prod.mk.inj hsame
  rw [hslot, hgeneration] at hholder
  have hruntime := hs.world.functional _ _ _ _ hholder hholder'
  have hlock : ∀ {t₀ : Thread} {todo₀ : List Prim} {c₀ : Ctx}, ThreadInv s.world t₀ →
      t₀.ctx = some c₀ → t₀.phase = .running todo₀ → .lock ∉ todo₀ := by
    intro t₀ todo₀ c₀ hinv₀ hc₀ hphase₀
    have hbound := hinv₀.bound c₀ hc₀
    rwa [Thread.todo, hphase₀] at hbound
  refine hs.held.unique (r := t.runtime) ?_ ?_
  · rw [ht]
    exact ⟨hop, rfl, by rw [hphase]; exact hlock hinv hc hphase⟩
  · rw [ht']
    exact ⟨hop', hruntime.symm, by rw [hphase']; exact hlock hinv' hc' hphase'⟩

lemma fits_exec (hw : WorldInv w) (ht : ThreadInv w t) (hphase : t.phase = .running (p :: rest))
    (hp : p ≠ .lock) : (exec poolSize w id t input p).Fits w t rest := by
  unfold exec
  split
  · exact absurd rfl hp
  · exact fits_resolve hw ht hphase _
  · rename_i ctx hctx
    exact fits_bound hw ht hctx hphase
  · exact fits_refuse hw

lemma holdsAt_running {r : String} {todo : List Prim} (hphase : t.phase = .running todo) :
    holdsAt (some t) r ↔ t.op.mutating = true ∧ t.runtime = r ∧ .lock ∉ todo := by
  rw [holdsAt, hphase]

lemma holdsAt_ended {r : String} (ctx : Option Ctx) (succeeded : Bool) :
    holdsAt (some (t.ended ctx succeeded)) r ↔ t.op.mutating = true ∧ t.runtime = r := by
  cases hop : t.op.mutating with
  | true =>
    have hphase : (t.ended ctx succeeded).phase = .over succeeded := by rw [Thread.ended, hop]; rfl
    rw [holdsAt, hphase]
    exact ⟨fun h => ⟨rfl, h.2.1⟩, fun h => ⟨hop, h.2, trivial⟩⟩
  | false =>
    refine iff_of_false (fun h => ?_) fun h => (by cases h.1)
    have hop' : t.op.mutating = true := h.1
    rw [hop] at hop'
    cases hop'

lemma threads_self : (s.withThread id t).threads id = some t := Function.update_self ..

lemma threads_of_ne (h : id' ≠ id) : (s.withThread id t).threads id' = s.threads id' :=
  Function.update_of_ne h ..

/-- A request has made a step that keeps what holds. -/
lemma Inv.stepped (hs : Inv s) (ht : s.threads id = some t) (hphase : t.phase = .running (p :: rest))
    (hp : p ≠ .lock) (hlocks : w'.locks = s.world.locks) (hw' : WorldInv w')
    (hagree : Agree t.touches s.world w') (ht' : ThreadInv w' t')
    (hhold : ∀ r, holdsAt (some t') r ↔ t.op.mutating = true ∧ t.runtime = r) :
    Inv { s.withThread id t' with world := w' } := by
  have hinv := hs.threads id t ht
  have hlock : .lock ∉ p :: rest := by
    rw [List.mem_cons, not_or]
    exact ⟨Ne.symm hp, lock_notMem (hinv.suffix _ hphase)⟩
  refine ⟨hw', ?_, ?_⟩
  · intro i t₁ h₁
    by_cases hi : i = id
    · subst hi
      obtain rfl := Option.some.inj (threads_self.symm.trans h₁)
      exact ht'
    · replace h₁ : s.threads i = some t₁ := (threads_of_ne hi).symm.trans h₁
      refine (hs.threads i t₁ h₁).agree hagree fun c todo hc hop hrunning heq => ?_
      unfold Thread.touches at heq
      split at heq
      · rename_i hop'
        obtain ⟨c', hc', hsame⟩ := Option.map_eq_some_iff.mp heq.symm
        exact hi (hs.alone h₁ ht hc hc' hop hop' hrunning hphase hsame.symm)
      · cases heq
  · rw [hlocks]
    refine hs.held.moved holdsAt fun r => ?_
    rw [hhold, ht, holdsAt_running hphase]
    exact ⟨fun h => ⟨h.1, h.2, hlock⟩, fun h => ⟨h.1, h.2.1⟩⟩

lemma lock_mutating (h : (Prim.lock :: rest) <:+ op.program) : op.mutating = true :=
  position (F := fun op l => l.head? = some .lock → op.mutating = true)
    (by intro op; cases op <;> decide) h rfl

lemma lock_mem_of_mutating (h : op.mutating = true) : .lock ∈ op.program := by
  revert h
  cases op <;> decide

lemma threadInv_locked (ht : ThreadInv w t) (hphase : t.phase = .running (.lock :: rest))
    (hw' : w' = { w with locks := w'.locks }) : ThreadInv w' (t.goOn rest none) := by
  have hsuffix := ht.suffix _ hphase
  have hrest : ∀ {todo}, (t.goOn rest none).phase = .running todo → rest = todo :=
    fun h => Phase.running.inj h
  refine ⟨?_, fun _ h => (by cases h), fun _ h => (by cases h), fun _ _ _ _ h => (by cases h),
    fun _ _ _ _ h => (by cases h), fun _ _ _ _ h => (by cases h), fun _ h => (by cases h), ?_⟩
  · intro todo h
    obtain rfl := hrest h
    exact (List.suffix_cons _ rest).trans hsuffix
  · intro todo h hop
    have hmutating := lock_mutating hsuffix
    replace hop : t.op = .release := hop
    rw [hop] at hmutating
    cases hmutating

lemma Inv.locked (hs : Inv s) (ht : s.threads id = some t)
    (hphase : t.phase = .running (.lock :: rest)) (input : Input) :
    Inv (stepThread s id t .lock rest input) := by
  have hinv := hs.threads id t ht
  have hsuffix := hinv.suffix _ hphase
  have hmutating := lock_mutating hsuffix
  have hbefore : ∀ r, ¬ holdsAt (s.threads id) r := by
    intro r h
    rw [ht, holdsAt_running hphase] at h
    exact h.2.2 List.mem_cons_self
  have hrefused : Inv { s.withThread id (t.refused .lock) with world := s.world } := by
    refine ⟨hs.world, ?_, ?_⟩
    · intro i t₁ h₁
      by_cases hi : i = id
      · subst hi
        obtain rfl := Option.some.inj (threads_self.symm.trans h₁)
        exact hinv.refused _
      · exact hs.threads i t₁ ((threads_of_ne hi).symm.trans h₁)
    · exact hs.held.moved holdsAt fun r => iff_of_false (fun h => h.2.2) (hbefore r)
  unfold PoolOps.stepThread
  simp only [exec]
  unfold takeLock
  split
  · rename_i w' ctx hresult
    split at hresult
    · cases hresult
    · rename_i locks hpermit
      split at hresult
      · cases hresult
      · rename_i locks' hlock
        obtain ⟨rfl, rfl⟩ := Result.next.inj hresult
        obtain ⟨hfree, htaken⟩ := RuntimeLocks.perRuntime_of_lock hlock
        rw [RuntimeLocks.perRuntime_of_takePermit hpermit] at hfree htaken
        have hagree : Agree none s.world { s.world with locks := locks' } :=
          agree_of_eq rfl rfl rfl rfl fun _ h => h
        refine ⟨hs.world.agree hagree rfl rfl rfl fun _ _ h => (by cases h), ?_, ?_⟩
        · intro i t₁ h₁
          by_cases hi : i = id
          · subst hi
            obtain rfl := Option.some.inj (threads_self.symm.trans h₁)
            have hlocked : ThreadInv { s.world with locks := locks' } (t.goOn rest none) :=
              threadInv_locked hinv hphase rfl
            split
            · exact hlocked.ended true
            · exact hlocked
          · replace h₁ : s.threads i = some t₁ := (threads_of_ne hi).symm.trans h₁
            exact (hs.threads i t₁ h₁).agree hagree fun _ _ _ _ _ h => (by cases h)
        · rw [htaken]
          refine hs.held.moved_take holdsAt hfree fun r => ?_
          have hafter : ∀ r, holdsAt (some (if rest = [] then t.ended none true
              else { t with phase := .running rest, ctx := none })) r ↔ t.runtime = r := by
            intro r
            split
            · exact (holdsAt_ended none true).trans ⟨fun h => h.2, fun h => ⟨hmutating, h⟩⟩
            · exact ⟨fun h => h.2.1, fun h => ⟨hmutating, h, lock_notMem hsuffix⟩⟩
          rw [hafter]
          exact ⟨fun h => .inr h.symm, fun h => h.elim (fun h => absurd h (hbefore r)) Eq.symm⟩
  · rename_i w' ctx hresult
    split at hresult
    · cases hresult
    · split at hresult <;> cases hresult
  · rename_i w' hresult
    obtain rfl : s.world = w' := by
      split at hresult
      · exact Result.refuse.inj hresult
      · split at hresult
        · exact Result.refuse.inj hresult
        · cases hresult
    exact hrefused

lemma Inv.stepThread (hs : Inv s) (ht : s.threads id = some t)
    (hphase : t.phase = .running (p :: rest)) (input : Input) :
    Inv (stepThread s id t p rest input) := by
  have hinv := hs.threads id t ht
  have hsuffix := hinv.suffix _ hphase
  by_cases hp : p = .lock
  · subst hp
    exact hs.locked ht hphase input
  · have hfits : (exec s.poolSize s.world id t input p).Fits s.world t rest :=
      fits_exec hs.world hinv hphase hp
    unfold PoolOps.stepThread
    split
    · rename_i w' ctx hresult
      rw [hresult] at hfits
      obtain ⟨hlocks, hw', hagree, ht'⟩ := hfits
      refine hs.stepped ht hphase hp hlocks hw' hagree ?_ fun r => ?_
      · split
        · exact ht'.ended true
        · exact ht'
      · split
        · exact holdsAt_ended ctx true
        · have hrunning : (t.goOn rest ctx).phase = .running rest := rfl
          refine (holdsAt_running hrunning).trans ?_
          exact ⟨fun h => ⟨h.1, h.2.1⟩, fun h => ⟨h.1, h.2, lock_notMem hsuffix⟩⟩
    · rename_i w' ctx hresult
      rw [hresult] at hfits
      obtain ⟨hlocks, hw', hagree, ht'⟩ := hfits
      exact hs.stepped ht hphase hp hlocks hw' hagree (ht'.ended true) fun r => holdsAt_ended ctx true
    · rename_i w' hresult
      rw [hresult] at hfits
      obtain ⟨hlocks, hw', hagree⟩ := hfits
      refine hs.stepped ht hphase hp hlocks hw' (hagree.weaken _)
        ((hinv.agree hagree fun _ _ _ _ _ h => (by cases h)).refused p) fun r => ?_
      rw [Thread.refused, if_neg hp]
      exact holdsAt_ended t.ctx false

/-- Something happens to the host, and leaves the occupancies as safe as they were. -/
lemma Inv.world_changed (hs : Inv s) (hagree : Agree none s.world w') (hdb : w'.db = s.world.db)
    (hholders : w'.holders = s.world.holders) (hevidence : w'.evidence = s.world.evidence)
    (hlocks : w'.locks = s.world.locks) : Inv { s with world := w' } := by
  refine ⟨hs.world.agree hagree hdb hholders hevidence fun _ _ h => (by cases h), ?_, ?_⟩
  · exact fun i t h => (hs.threads i t h).agree hagree fun _ _ _ _ _ h => (by cases h)
  · rw [hlocks]
    exact hs.held

lemma inv_step (hs : Inv s) (a : Action) : Inv (step s a) := by
  cases a with
  | request id op runtime =>
    rw [step]
    split
    · rename_i hnone
      refine ⟨hs.world, ?_, ?_⟩
      · intro i t h
        by_cases hi : i = id
        · subst hi
          obtain rfl := Option.some.inj (threads_self.symm.trans h)
          refine ⟨?_, fun _ h => (by cases h), fun _ h => (by cases h), fun _ _ _ _ h => (by cases h),
            fun _ _ _ _ h => (by cases h), fun _ _ _ _ h => (by cases h), fun _ h => (by cases h),
            ?_⟩
          · intro todo htodo
            rw [← Phase.running.inj htodo]
          · intro todo htodo hop hnot
            obtain rfl := Phase.running.inj htodo
            have hop' : op = .release := hop
            have hmem : Prim.checkProofs ∈ op.program := by rw [hop']; decide
            exact absurd hmem hnot
        · exact hs.threads i t ((threads_of_ne hi).symm.trans h)
      · refine hs.held.moved holdsAt fun r => iff_of_false (fun h => ?_) (by rw [hnone]; exact nofun)
        exact h.2.2 (lock_mem_of_mutating h.1)
    · exact hs
  | step id input =>
    rw [step]
    split
    · rename_i t ht
      split
      · rename_i p rest hphase
        exact hs.stepThread ht hphase input
      · exact hs
    · exact hs
  | raise id =>
    rw [step]
    split
    · rename_i t ht
      split
      · rename_i p rest hphase
        have hinv := hs.threads id t ht
        refine ⟨hs.world, ?_, ?_⟩
        · intro i t₁ h₁
          by_cases hi : i = id
          · subst hi
            obtain rfl := Option.some.inj (threads_self.symm.trans h₁)
            exact hinv.refused p
          · exact hs.threads i t₁ ((threads_of_ne hi).symm.trans h₁)
        · refine hs.held.moved holdsAt fun r => ?_
          rw [ht, holdsAt_running hphase]
          have hrest := lock_notMem (hinv.suffix _ hphase)
          by_cases hp : p = .lock
          · rw [Thread.refused, if_pos hp, hp]
            exact iff_of_false (fun h => h.2.2) fun h => h.2.2 List.mem_cons_self
          · rw [Thread.refused, if_neg hp, holdsAt_ended]
            refine ⟨fun h => ⟨h.1, h.2, ?_⟩, fun h => ⟨h.1, h.2.1⟩⟩
            rw [List.mem_cons, not_or]
            exact ⟨Ne.symm hp, hrest⟩
      · exact hs
    · exact hs
  | unlock id =>
    rw [step]
    split
    · rename_i t ht
      split
      · have hagree : Agree none s.world { s.world with
            locks := (s.world.locks.unlock id).returnPermit } :=
          agree_of_eq rfl rfl rfl rfl fun _ h => h
        refine ⟨hs.world.agree hagree rfl rfl rfl fun _ _ h => (by cases h), ?_, ?_⟩
        · intro i t₁ h₁
          by_cases hi : i = id
          · subst hi
            obtain rfl := Option.some.inj (threads_self.symm.trans h₁)
            have hinv := (hs.threads i t ht).agree hagree fun _ _ _ _ _ h => (by cases h)
            exact hinv.stopped nofun
          · replace h₁ : s.threads i = some t₁ := (threads_of_ne hi).symm.trans h₁
            exact (hs.threads i t₁ h₁).agree hagree fun _ _ _ _ _ h => (by cases h)
        · exact hs.held.moved_release holdsAt fun r h => h.2.2
      · exact hs
    · exact hs
  | spawn slot g =>
    rw [step]
    split
    · rename_i hlaunched
      refine hs.world_changed ⟨fun _ _ _ h => h, fun _ _ _ h => h, ?_, fun _ _ => rfl,
        fun _ h => h, fun _ h => h⟩ rfl rfl rfl rfl
      intro k g' _ hlaunch hprocess
      show g' ∉ Function.update s.world.processes slot (g :: s.world.processes slot) k
      by_cases hk : k = slot
      · subst hk
        rw [Function.update_self, List.mem_cons, not_or]
        refine ⟨?_, hprocess⟩
        rintro rfl
        exact hlaunch hlaunched
      · rwa [Function.update_of_ne hk]
    · exact hs
  | taskEnds slot g =>
    refine hs.world_changed ⟨fun _ _ _ h => h, ?_, fun _ _ _ _ h => h, fun _ _ => rfl, fun _ h => h,
      fun _ h => h⟩ rfl rfl rfl rfl
    intro k g' _ hlaunch
    show g' ∉ Function.update s.world.launches slot ((s.world.launches slot).erase g) k
    by_cases hk : k = slot
    · subst hk
      rw [Function.update_self]
      exact fun h => hlaunch (List.mem_of_mem_erase h)
    · rwa [Function.update_of_ne hk]
  | exit slot g =>
    refine hs.world_changed ⟨fun _ _ _ h => h, fun _ _ _ h => h, ?_, fun _ _ => rfl, fun _ h => h,
      fun _ h => h⟩ rfl rfl rfl rfl
    intro k g' _ _ hprocess
    show g' ∉ Function.update s.world.processes slot ((s.world.processes slot).erase g) k
    by_cases hk : k = slot
    · subst hk
      rw [Function.update_self]
      exact fun h => hprocess (List.mem_of_mem_erase h)
    · rwa [Function.update_of_ne hk]
  | clearQuarantine args =>
    have hagree : Agree none s.world { s.world with
        db := (s.world.db.apply s.poolSize (.clearQuarantine args)).1 } :=
      agree_of_eq rfl rfl rfl rfl fun _ h => h
    refine ⟨worldInv_kept hs.world (SlotStore.apply_kept hs.world.wf _ rfl nofun), ?_, hs.held⟩
    exact fun i t h => (hs.threads i t h).agree hagree fun _ _ _ _ _ h => (by cases h)

lemma inv_run (poolSize : SlotStore.PoolSize) (as : List Action) :
    Inv (run step (.initial poolSize) as) :=
  run_invariant (P := Inv) (fun _ a hs => inv_step hs a) (inv_initial poolSize) as

/-! ### The end of an occupancy -/

/-- The tables after a step of a program. -/
def Result.db : Result → Db
  | .next w _ | .finish w _ | .refuse w => w.db

lemma generationOf_kept {db' : Db} (hkept : Kept w.db db')
    (h : w.db.generationOf slot = some g) : db'.generationOf slot = some g :=
  (hkept.generationOf slot).trans h

lemma generationOf_execBound (hw : WorldInv w) (hp : p ≠ .advance)
    (h : w.db.generationOf slot = some g) :
    (execBound poolSize w op u ctx input p).db.generationOf slot = some g := by
  have hquarantine : ∀ reason now, (w.db.apply poolSize
      (.quarantineSlot ctx.slot reason now)).1.generationOf slot = some g := fun reason now =>
    generationOf_kept (SlotStore.apply_kept hw.wf _ rfl nofun) h
  have hrecord : ∀ stage status, (recordStage w ctx stage status).db.generationOf slot = some g := by
    intro stage status
    unfold recordStage
    split <;> exact h
  cases p with
  | advance => exact absurd rfl hp
  | gate =>
    show (gate poolSize w op u ctx input.now).db.generationOf slot = some g
    have hmarked : (assertOccupancyIntegrity poolSize w u ctx input.now).db.generationOf slot =
        some g := by
      unfold assertOccupancyIntegrity
      split
      · exact h
      split
      · exact h
      · exact hquarantine _ _
    have hunmarked : ∀ agree, (gateWithoutMarker w ctx agree).db.generationOf slot = some g := by
      intro agree
      unfold gateWithoutMarker
      split
      · exact h
      split <;> exact h
    unfold gate
    split
    · exact hunmarked _
    · exact hunmarked _
    · exact hmarked
  | record stage =>
    simp only [execBound]
    split
    · exact hrecord _ _
    · exact h
  | recordProofs stage => exact hrecord _ _
  | auditCheckpoint =>
    simp only [execBound]
    split
    · exact h
    · exact hquarantine _ _
  | moveDir =>
    simp only [execBound]
    split
    · exact h
    · by_cases hmoved : (input.ok || input.effect) = true
      · rw [if_pos hmoved]
        exact h
      · rw [if_neg hmoved]
        exact h
  | copyEnd | writeOwnerTag =>
    simp only [execBound]
    split
    · exact h
    split
    · split <;> exact h
    · exact h
  | copy =>
    simp only [execBound]
    split
    · exact h
    split <;> exact h
  | observeIdle | postCheck | writeCommonIni | assertEvidence | observeAbsent | checkProofs
  | checkQuarantine | checkMonotonic | observe =>
    simp only [execBound]
    split <;> exact h
  | _ => exact h

lemma generationOf_resolve (hw : WorldInv w) (now : ℤ) (h : w.db.generationOf slot = some g) :
    (resolve poolSize w op u now).db.generationOf slot = some g := by
  unfold resolve
  split
  · split
    · exact h
    split
    · rename_i db k g' happly
      show db.generationOf slot = some g
      rcases SlotStore.apply_assign hw.wf happly with ⟨rfl, -⟩ | htook
      · exact h
      · by_cases hk : slot = k
        · subst hk
          have hgen := htook.generation
          rw [h, Option.getD_some] at hgen
          rw [hgen]
          exact htook.holds.2
        · rw [Db.generationOf, htook.others slot hk]
          exact h
    · rename_i db answer hnot happly
      obtain rfl := SlotStore.apply_assign_refused happly fun slot g h => hnot slot g h
      exact h
  · split <;> exact h

def Ends (s s' : State) (slot g : ℤ) : Prop :=
  s.world.db.generationOf slot = some g ∧ s'.world.db.generationOf slot = some (g + 1)

lemma world_stepThread (s : State) (id : ℕ) (t : Thread) (p : Prim) (rest : List Prim)
    (input : Input) : (stepThread s id t p rest input).world.db =
      (exec s.poolSize s.world id t input p).db := by
  unfold stepThread
  split <;> rename_i hresult <;> rw [hresult] <;> rfl

lemma ends_cases (hs : Inv s) (hends : Ends s (step s a) slot g) :
    ∃ id input t rest ctx, a = .step id input ∧ s.threads id = some t ∧
      t.phase = .running (.advance :: rest) ∧ t.ctx = some ctx ∧ ctx.slot = slot ∧
      ctx.generation = g ∧ (step s a).world = { s.world with db := (step s a).world.db } := by
  obtain ⟨hbefore, hafter⟩ := hends
  have hno : (step s a).world.db.generationOf slot ≠ some g := by
    rw [hafter]
    intro heq
    have := Option.some.inj heq
    omega
  cases a with
  | request id op runtime =>
    rw [step] at hno
    split at hno <;> exact absurd hbefore hno
  | raise id | unlock id =>
    rw [step] at hno
    split at hno
    · split at hno <;> exact absurd hbefore hno
    · exact absurd hbefore hno
  | spawn slot g =>
    rw [step] at hno
    split at hno <;> exact absurd hbefore hno
  | taskEnds | exit => exact absurd hbefore hno
  | clearQuarantine args =>
    have hkept : Kept s.world.db (s.world.db.apply s.poolSize (.clearQuarantine args)).1 :=
      SlotStore.apply_kept hs.world.wf _ rfl nofun
    exact absurd (generationOf_kept hkept hbefore) hno
  | step id input =>
    rw [step] at hno hafter
    cases ht : s.threads id with
    | none =>
      rw [ht] at hno
      exact absurd hbefore hno
    | some t =>
      rw [ht] at hno hafter
      simp only at hno hafter
      split at hno
      · rename_i p rest hphase
        rw [hphase] at hafter
        rw [world_stepThread] at hno hafter
        have hp : p = .advance := by
          by_contra hp
          refine hno ?_
          unfold exec
          split
          · show (takeLock s.world t.runtime id).db.generationOf slot = some g
            unfold takeLock
            split
            · exact hbefore
            · split <;> exact hbefore
          · exact generationOf_resolve hs.world _ hbefore
          · exact generationOf_execBound hs.world hp hbefore
          · exact hbefore
        subst hp
        cases hctx : t.ctx with
        | none =>
          simp only [exec, hctx] at hno
          exact absurd hbefore hno
        | some ctx =>
          simp only [exec, hctx, execBound] at hafter hno
          refine ⟨id, input, t, rest, ctx, rfl, ht, hphase, hctx, ?_⟩
          split at hno
          · rename_i db g' happly
            have hfreed := SlotStore.apply_advance hs.world.wf happly
            have hslot : ctx.slot = slot := by
              by_contra hne
              refine hno ?_
              show db.generationOf slot = some g
              rw [Db.generationOf, hfreed.others slot (Ne.symm hne)]
              exact hbefore
            have hheld := hfreed.holds.2
            rw [hslot] at hheld
            refine ⟨hslot, Option.some.inj (hheld.symm.trans hbefore), ?_⟩
            rw [step, ht]
            simp only [hphase, stepThread, exec, hctx, execBound, happly]
          · rename_i db answer hnot happly
            obtain rfl := SlotStore.apply_advance_refused happly fun g h => hnot g h
            exact absurd hbefore hno
      · exact absurd hbefore hno

/-! ### A released slot -/

/-- A slot at the end of an occupancy: it holds no content of it, no process of it runs, and nothing has
been staged in it since the cleanup on record. -/
structure CleanRelease (w : World) (slot g : ℤ) : Prop where
  directory : ∀ tree, w.trees slot = some tree → g ∉ tree.staged
  processes : g ∉ w.processes slot
  evidence : w.history (slot, g) = .cleaned

def ReleasesClean (poolSize : SlotStore.PoolSize) (as : List Action) : Prop :=
  ∀ pre a post slot g, as = pre ++ a :: post →
    Ends (run step (.initial poolSize) pre) (run step (.initial poolSize) (pre ++ [a])) slot g →
    CleanRelease (run step (.initial poolSize) (pre ++ [a])).world slot g

/-- What a request knows that is about to free its slot. -/
def Thread.releasing (t : Thread) : Option Ctx :=
  match t.phase with
  | .running (.advance :: _) => t.ctx
  | _ => none

/-- A release makes its last step when nothing has been staged in the occupancy after its last completed
cleanup. -/
def Careful (s : State) : Action → Prop
  | .step id _ => ∀ ctx ∈ (s.threads id).bind Thread.releasing,
      s.world.history (ctx.slot, ctx.generation) ≠ .restaged
  | _ => True

lemma clean_of_ends (hs : Inv s) (ha : Careful s a) (hends : Ends s (step s a) slot g) :
    CleanRelease (step s a).world slot g := by
  obtain ⟨id, input, t, rest, ctx, rfl, ht, hphase, hctx, rfl, rfl, hworld⟩ := ends_cases hs hends
  have hinv := hs.threads id t ht
  have hop : t.op = .release := op_eq_of_home (hinv.suffix _ hphase) rfl
  have hrest : rest = [] :=
    position (F := fun _ l => l.head? = some .advance → l.tail = [])
      (by intro op; cases op <;> decide) (hinv.suffix _ hphase) rfl
  obtain ⟨ctx', hctx', hcleanup⟩ := hinv.proved _ hphase hop (by rw [hrest]; decide)
  obtain rfl := Option.some.inj (hctx.symm.trans hctx')
  -- the evidence speaks of a completed cleanup, and nothing has been staged since then
  have hnot : s.world.history (ctx.slot, ctx.generation) ≠ .restaged := by
    refine ha ctx ?_
    rw [ht, Option.bind_some, Thread.releasing, hphase]
    exact hctx
  have hcleaned : s.world.history (ctx.slot, ctx.generation) = .cleaned :=
    (hinv.read ctx hctx hcleanup).resolve_right hnot
  have hsafe := hs.world.cleaned _ _ hcleaned
  rw [hworld]
  exact ⟨fun tree htree => (hsafe.tree tree htree).1, hsafe.processes, hcleaned⟩

/-- Every release leaves a clean slot, in the runs in which nothing is staged between the cleanup and
the release. -/
theorem releasesClean_of_careful (poolSize : SlotStore.PoolSize) (as : List Action)
    (has : StepsMeet step Careful (.initial poolSize) as) : ReleasesClean poolSize as := by
  intro pre a post slot g hsplit hends
  rw [run_concat] at hends ⊢
  exact clean_of_ends (inv_run poolSize pre) (stepsMeet_iff.mp has pre a post hsplit) hends

/-! ### Runs -/

/-- The steps of an operation, which all go well. -/
def perform (id : ℕ) (op : PoolOp) : List Action :=
  .request id op "u1" :: op.program.map (fun _ => .step id {}) ++ [.unlock id]

instance (s : State) (a : Action) : Decidable (Careful s a) :=
  match a with
  | .step id _ => inferInstanceAs (Decidable (∀ ctx ∈ (s.threads id).bind Thread.releasing,
      s.world.history (ctx.slot, ctx.generation) ≠ .restaged))
  | .request .. | .raise _ | .unlock _ | .spawn .. | .taskEnds .. | .exit .. | .clearQuarantine _ =>
    .isTrue trivial

/-- A runtime is staged, moved away and released. -/
def properRun : List Action :=
  perform 0 .materialise ++ perform 1 .tombstone ++ perform 2 .release

/-- The runtime is staged once more before the release. -/
def restagedRun : List Action :=
  perform 0 .materialise ++ perform 1 .tombstone ++ perform 2 .materialise ++ perform 3 .release

def onePool : SlotStore.PoolSize := ⟨1, by decide⟩

theorem releasesClean_properRun :
    (run step (.initial onePool) properRun).world.db.generationOf 1 = some 2 ∧
      ReleasesClean onePool properRun :=
  ⟨by decide +kernel, releasesClean_of_careful onePool properRun (by decide +kernel)⟩

/-- The release succeeds on the evidence of the first cleanup, with the content of the occupancy in the
slot. -/
theorem releasesClean_broken :
    ((run step (.initial onePool) restagedRun).threads 3).map (·.phase) = some (.answered true) ∧
      ((run step (.initial onePool) restagedRun).world.trees 1).map (·.staged) = some [1] ∧
      ¬ ReleasesClean onePool restagedRun := by
  refine ⟨by decide +kernel, by decide +kernel, fun hclean => ?_⟩
  -- the last but one action is the last step of the release
  have hrelease := hclean (restagedRun.dropLast.dropLast) (.step 3 {}) [.unlock 3] 1 1
    (by decide +kernel) ⟨by decide +kernel, by decide +kernel⟩
  have hstaged : ((run step (.initial onePool)
      (restagedRun.dropLast.dropLast ++ [.step 3 {}])).world.trees 1).map (·.staged) = some [1] := by
    decide +kernel
  obtain ⟨tree, htree, hcontent⟩ := Option.map_eq_some_iff.mp hstaged
  refine hrelease.directory tree htree ?_
  rw [hcontent]
  exact List.mem_singleton_self 1

end PoolOps
end GuvFX
