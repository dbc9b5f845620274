/-
# What a call does to the slots

A locked section that commits gives a free slot to a runtime that holds none, or frees the slot of a
runtime and advances its generation by one, or leaves slots and ledger alone.  The file proves it of
every operation, and draws the conclusions for every run of the store, crashes included: two runtimes
never have the same occupancy, a runtime holds one slot, the ledger is the exact sequence of the
generations, and an assignment to a runtime that has a slot is answered with that slot.
-/
import GuvFX.BetaAgent.SlotStore

namespace GuvFX
namespace SlotStore

open Runs Checks

variable {db db' : Db} {k slot g : ℤ} {u v uid : String} {now : ℤ}

/-! ### Reading the tables -/

/-- The runtime holds the slot in its generation `g`. -/
def Holds (db : Db) (uid : String) (slot g : ℤ) : Prop :=
  db.occupant slot = some uid ∧ db.generationOf slot = some g

lemma holds_iff : Holds db uid slot g ↔
    ∃ row, db.slots.get slot = some row ∧ row.runtimeUuid = some uid ∧ row.generation = g := by
  unfold Holds Db.occupant Db.generationOf
  cases db.slots.get slot with
  | none => simp
  | some row => simp

lemma occupant_eq_some_iff : db.occupant slot = some uid ↔
    ∃ row, db.slots.get slot = some row ∧ row.runtimeUuid = some uid :=
  Option.bind_eq_some_iff

lemma slotOf_eq_none_iff : db.slotOf uid = none ↔ ∀ k, db.occupant k ≠ some uid := by
  rw [Db.slotOf, List.find?_eq_none]
  constructor
  · intro h k hk
    obtain ⟨row, hrow, huid⟩ := occupant_eq_some_iff.mp hk
    exact h row (Rows.get_eq_some_iff.mp hrow).1 (by simpa using huid)
  · intro h row hrow huid
    exact h row.slot (occupant_eq_some_iff.mpr
      ⟨row, Rows.get_eq_some_iff.mpr ⟨hrow, rfl⟩, by simpa using huid⟩)

lemma of_slotOf {row : SlotRow} (h : db.slotOf uid = some row) :
    db.slots.get row.slot = some row ∧ row.runtimeUuid = some uid :=
  ⟨Rows.get_eq_some_iff.mpr ⟨List.mem_of_find?_eq_some h, rfl⟩, by simpa using List.find?_some h⟩

lemma holds_of_slotOf {row : SlotRow} (h : db.slotOf uid = some row) :
    Holds db uid row.slot row.generation :=
  holds_iff.mpr ⟨row, (of_slotOf h).1, (of_slotOf h).2, rfl⟩

/-! ### What a locked section can do -/

/-- A free slot has been given to a runtime that held none. -/
structure Took (db db' : Db) (slot : ℤ) (uid : String) (g : ℤ) : Prop where
  free : db.occupant slot = none
  unheld : ∀ k, db.occupant k ≠ some uid
  generation : (db.generationOf slot).getD generationStart = g
  holds : Holds db' uid slot g
  others : ∀ k ≠ slot, db'.slots.get k = db.slots.get k
  /-- The first use of a slot is entered into the ledger. -/
  ledger : ∀ k, db'.ledger k =
    db.ledger k ++ if k = slot ∧ db.generationOf slot = none then [generationStart] else []
  quarantine : db'.slotQuarantine = db.slotQuarantine
  block : db'.allocationBlock = db.allocationBlock

structure Freed (db db' : Db) (slot : ℤ) (uid : String) (g : ℤ) : Prop where
  holds : Holds db uid slot g
  free : db'.occupant slot = none
  generation : db'.generationOf slot = some (g + 1)
  others : ∀ k ≠ slot, db'.slots.get k = db.slots.get k
  ledger : ∀ k, db'.ledger k = db.ledger k ++ if k = slot then [g + 1] else []
  quarantine : db'.slotQuarantine = db.slotQuarantine
  block : db'.allocationBlock = db.allocationBlock

/-- Slots and ledger are as they were. -/
structure Kept (db db' : Db) : Prop where
  slots : db'.slots = db.slots
  slotGenerations : db'.slotGenerations = db.slotGenerations

/-- What an operation that keeps the slots may do to the marks of the store. -/
structure Marks (op : Op) (db db' : Db) : Prop where
  block : (∃ reason now, op = .blockAllocation reason now) ∨
    (db.allocationBlock = none → db'.allocationBlock = none)
  quarantine : ∀ k, db'.isQuarantined k = true →
    db.isQuarantined k = true ∨ ∃ reason now, op = .quarantineSlot k reason now

/-- The runtime whose slot an operation frees. -/
def Op.releases : Op → Option String
  | .release uid _ => some uid
  | .releaseAfterTombstone args => some args.runtimeUuid
  | _ => none

/-- What the committed section of an operation has done. -/
inductive Moves : Op → Db → Db → Prop
  | took {db db' : Db} {uid : String} {now slot g : ℤ} (h : Took db db' slot uid g) :
    Moves (.assign uid now) db db'
  | freed {db db' : Db} {op : Op} {uid : String} {slot g : ℤ} (hop : op.releases = some uid)
    (h : Freed db db' slot uid g) : Moves op db db'
  | kept {db db' : Db} {op : Op} (hop : op.releases = none) (h : Kept db db')
    (hmarks : Marks op db db') : Moves op db db'

/-- The tables of a store on which nothing has gone wrong. -/
structure Wf (db : Db) : Prop where
  one_slot : ∀ {u k k'}, db.occupant k = some u → db.occupant k' = some u → k = k'
  unused : ∀ {k}, db.generationOf k = none → db.ledger k = []
  ledger : ∀ {k g}, db.generationOf k = some g → 1 ≤ g ∧ db.ledger k = generationSeq g.toNat

lemma wf_initial : Wf .initial where
  one_slot := fun h => nomatch h
  unused := fun _ => rfl
  ledger := fun h => nomatch h

/-! ### The rows after a statement -/

lemma get_occupy (rows : Rows SlotRow SlotRow.slot) (slot now : ℤ) (uid : String) (k : ℤ) :
    (rows.modify (SlotRow.occupy slot uid now) (by simp)).get k =
      if k = slot then (rows.get slot).map fun r =>
        { r with runtimeUuid := some uid, assignedAt := some now } else rows.get k := by
  rw [Rows.get_modify]
  cases hget : rows.get k with
  | none =>
    by_cases hk : k = slot
    · subst hk
      simp [hget]
    · simp [hk]
  | some r =>
    have hslot : r.slot = k := (Rows.get_eq_some_iff.mp hget).2
    by_cases hk : k = slot
    · subst hk
      simp [hget, SlotRow.occupy, hslot]
    · simp [hk, SlotRow.occupy, hslot]

lemma get_vacate (rows : Rows SlotRow SlotRow.slot) (slot g k : ℤ) :
    (rows.modify (SlotRow.vacate slot g) (by simp)).get k =
      if k = slot then (rows.get slot).map fun r =>
        { r with runtimeUuid := none, assignedAt := none, generation := g } else rows.get k := by
  rw [Rows.get_modify]
  cases hget : rows.get k with
  | none =>
    by_cases hk : k = slot
    · subst hk
      simp [hget]
    · simp [hk]
  | some r =>
    have hslot : r.slot = k := (Rows.get_eq_some_iff.mp hget).2
    by_cases hk : k = slot
    · subst hk
      simp [hget, SlotRow.vacate, hslot]
    · simp [hk, SlotRow.vacate, hslot]

lemma ledger_append {rows' : Rows LedgerRow fun r => (r.slot, r.generation)} {row : LedgerRow}
    (h : rows'.rows = db.slotGenerations.rows ++ [row]) (hledger : db'.slotGenerations = rows')
    (k : ℤ) : db'.ledger k = db.ledger k ++ if k = row.slot then [row.generation] else [] := by
  rw [Db.ledger, hledger, h, List.filter_append, List.map_append, Db.ledger]
  by_cases hk : k = row.slot
  · simp [hk]
  · have hne : row.slot ≠ k := fun h => hk h.symm
    simp [hk, hne]

lemma fresh_generation (h : g ∉ db.ledger slot) : db.slotGenerations.get (slot, g) = none := by
  refine Rows.get_eq_none_iff.mpr fun r hr hkey => h ?_
  obtain ⟨hslot, hgen⟩ := Prod.mk.inj hkey
  exact List.mem_map.mpr ⟨r, List.mem_filter.mpr ⟨hr, by simpa using hslot⟩, hgen⟩

lemma mem_generationSeq {n : ℕ} : g ∈ generationSeq n ↔ 1 ≤ g ∧ g ≤ n := by
  rw [generationSeq, List.mem_map]
  constructor
  · rintro ⟨i, hi, rfl⟩
    have hlt := List.mem_range.mp hi
    unfold generationStart
    omega
  · rintro ⟨h1, hn⟩
    refine ⟨(g - 1).toNat, List.mem_range.mpr (by omega), ?_⟩
    unfold generationStart
    omega

lemma generationSeq_succ (hg : 1 ≤ g) :
    generationSeq (g + 1).toNat = generationSeq g.toNat ++ [g + 1] := by
  have hnat : (g + 1).toNat = g.toNat + 1 := by omega
  rw [generationSeq, hnat, List.range_succ, List.map_append, generationSeq, List.map_singleton]
  congr 2
  unfold generationStart
  omega

lemma Wf.next_fresh (h : Wf db) (hg : db.generationOf slot = some g) : g + 1 ∉ db.ledger slot := by
  obtain ⟨hpos, hledger⟩ := h.ledger hg
  rw [hledger, mem_generationSeq]
  omega

/-! ### The tables stay well formed -/

lemma Took.wf (h : Took db db' slot uid g) (hdb : Wf db) : Wf db' := by
  have hocc : ∀ k ≠ slot, db'.occupant k = db.occupant k := fun k hk => by
    rw [Db.occupant, h.others k hk, Db.occupant]
  have hgen : ∀ k ≠ slot, db'.generationOf k = db.generationOf k := fun k hk => by
    rw [Db.generationOf, h.others k hk, Db.generationOf]
  have hledger : ∀ k ≠ slot, db'.ledger k = db.ledger k := fun k hk => by
    rw [h.ledger, if_neg (fun hand => hk hand.1), List.append_nil]
  refine ⟨?_, ?_, ?_⟩
  · intro u k k' hk hk'
    by_cases hks : k = slot
    · by_cases hks' : k' = slot
      · rw [hks, hks']
      · have hu : u = uid := by
          rw [hks, h.holds.1] at hk
          exact (Option.some.inj hk).symm
        rw [hocc k' hks', hu] at hk'
        exact absurd hk' (h.unheld k')
    · by_cases hks' : k' = slot
      · have hu : u = uid := by
          rw [hks', h.holds.1] at hk'
          exact (Option.some.inj hk').symm
        rw [hocc k hks, hu] at hk
        exact absurd hk (h.unheld k)
      · rw [hocc k hks] at hk
        rw [hocc k' hks'] at hk'
        exact hdb.one_slot hk hk'
  · intro k hk
    have hks : k ≠ slot := by
      rintro rfl
      rw [h.holds.2] at hk
      cases hk
    rw [hgen k hks] at hk
    rw [hledger k hks]
    exact hdb.unused hk
  · intro k g' hk
    by_cases hks : k = slot
    · subst hks
      obtain rfl : g = g' := Option.some.inj (h.holds.2.symm.trans hk)
      have hold := h.generation
      rw [h.ledger]
      cases hfirst : db.generationOf k with
      | none =>
        rw [hfirst] at hold
        obtain rfl : generationStart = g := hold
        rw [hdb.unused hfirst, if_pos ⟨rfl, rfl⟩]
        exact ⟨Int.le_refl 1, rfl⟩
      | some g₀ =>
        rw [hfirst] at hold
        obtain rfl : g₀ = g := hold
        rw [if_neg (fun hand => nomatch hand.2), List.append_nil]
        exact hdb.ledger hfirst
    · rw [hgen k hks] at hk
      rw [hledger k hks]
      exact hdb.ledger hk

lemma Freed.wf (h : Freed db db' slot uid g) (hdb : Wf db) : Wf db' := by
  have hocc : ∀ {k u}, db'.occupant k = some u → db.occupant k = some u := by
    intro k u hk
    by_cases hks : k = slot
    · rw [hks, h.free] at hk
      cases hk
    · rwa [Db.occupant, h.others k hks] at hk
  have hgen : ∀ k ≠ slot, db'.generationOf k = db.generationOf k := fun k hk => by
    rw [Db.generationOf, h.others k hk, Db.generationOf]
  refine ⟨fun hk hk' => hdb.one_slot (hocc hk) (hocc hk'), ?_, ?_⟩
  · intro k hk
    have hks : k ≠ slot := by
      rintro rfl
      rw [h.generation] at hk
      cases hk
    rw [hgen k hks] at hk
    rw [h.ledger, if_neg hks, List.append_nil]
    exact hdb.unused hk
  · intro k g' hk
    rw [h.ledger]
    by_cases hks : k = slot
    · subst hks
      obtain rfl : g + 1 = g' := Option.some.inj (h.generation.symm.trans hk)
      obtain ⟨hpos, hledger⟩ := hdb.ledger h.holds.2
      rw [hledger, if_pos rfl, generationSeq_succ hpos]
      exact ⟨by omega, rfl⟩
    · rw [hgen k hks] at hk
      rw [if_neg hks, List.append_nil]
      exact hdb.ledger hk

lemma Kept.occupant (h : Kept db db') (k : ℤ) : db'.occupant k = db.occupant k := by
  rw [Db.occupant, h.slots, Db.occupant]

lemma Kept.generationOf (h : Kept db db') (k : ℤ) : db'.generationOf k = db.generationOf k := by
  rw [Db.generationOf, h.slots, Db.generationOf]

lemma Kept.ledger (h : Kept db db') (k : ℤ) : db'.ledger k = db.ledger k := by
  rw [Db.ledger, h.slotGenerations, Db.ledger]

lemma Kept.wf (h : Kept db db') (hdb : Wf db) : Wf db' where
  one_slot := fun hk hk' => hdb.one_slot (h.occupant _ ▸ hk) (h.occupant _ ▸ hk')
  unused := fun hk => h.ledger _ ▸ hdb.unused (h.generationOf _ ▸ hk)
  ledger := fun hk => h.ledger _ ▸ hdb.ledger (h.generationOf _ ▸ hk)

lemma Moves.wf {op : Op} (h : Moves op db db') (hdb : Wf db) : Wf db' := by
  cases h with
  | took h => exact h.wf hdb
  | freed hop h => exact h.wf hdb
  | kept hop h hmarks => exact h.wf hdb

/-! ### The locked sections -/

def Conn.execAll (c : Conn) : List Statement → Option Conn
  | [] => some c
  | st :: sts => (c.exec st).bind fun c' => c'.execAll sts

lemma Conn.committed_exec {c c' : Conn} {st : Statement} (h : c.exec st = some c') :
    c'.committed = c.committed := by
  unfold Conn.exec at h
  split at h
  · cases h
  · obtain ⟨db', -, rfl⟩ := Option.map_eq_some_iff.mp h
    rfl

lemma Conn.execAll_view {todo : List Statement} (hno : Statement.beginImmediate ∉ todo) (c : Conn)
    (h : c.view.execAll todo = some db') :
    ∃ c', c.execAll todo = some c' ∧ c'.committed = c.committed ∧ c'.view = db' := by
  induction todo generalizing c with
  | nil => exact ⟨c, rfl, rfl, Option.some.inj h⟩
  | cons st sts ih =>
    obtain ⟨db₁, hst, hsts⟩ := Option.bind_eq_some_iff.mp h
    have hne : st ≠ .beginImmediate := fun heq => hno (heq ▸ List.mem_cons_self)
    have hexec : c.exec st = some { c with txn := some db₁ } := by
      rw [Conn.exec, if_neg (fun hand => hne hand.1), hst, Option.map_some]
    obtain ⟨c', hc', hcommitted, hview⟩ :=
      ih (fun hmem => hno (List.mem_cons_of_mem st hmem)) { c with txn := some db₁ } hsts
    refine ⟨c', ?_, hcommitted, hview⟩
    rw [Conn.execAll, hexec, Option.bind_some, hc']

lemma mem_lowestFree {n : ℕ} (h : db.lowestFree n = some slot) : db.occupant slot = none := by
  simpa using List.find?_some h

lemma took_occupy {row : SlotRow} (hunheld : db.slotOf uid = none)
    (hfree : db.occupant slot = none) (hrow : db.slots.get slot = some row) (now : ℤ) :
    ∃ db', db.execAll [.occupy slot uid now] = some db' ∧ Took db db' slot uid row.generation := by
  have hno : ¬ ∃ r ∈ db.slots.rows, r.slot ≠ slot ∧ r.runtimeUuid = some uid := by
    rintro ⟨r, hr, -, huid⟩
    exact slotOf_eq_none_iff.mp hunheld r.slot
      (occupant_eq_some_iff.mpr ⟨r, Rows.get_eq_some_iff.mpr ⟨hr, rfl⟩, huid⟩)
  refine ⟨{ db with slots := db.slots.modify (SlotRow.occupy slot uid now) (by simp) }, ?_, ?_⟩
  · rw [Db.execAll, Db.exec, if_neg hno, Option.bind_some, Db.execAll]
  have hgen : db.generationOf slot = some row.generation := by rw [Db.generationOf, hrow]; rfl
  refine ⟨hfree, slotOf_eq_none_iff.mp hunheld, by rw [hgen]; rfl, ?_, ?_, ?_, rfl, rfl⟩
  · refine holds_iff.mpr ⟨{ row with runtimeUuid := some uid, assignedAt := some now }, ?_, rfl, rfl⟩
    rw [get_occupy, if_pos rfl, hrow, Option.map_some]
  · intro k hk
    rw [get_occupy, if_neg hk]
  · intro k
    rw [hgen, if_neg (fun hand => nomatch hand.2), List.append_nil]
    rfl

lemma took_insert (hdb : Wf db) (hunheld : db.slotOf uid = none)
    (hrow : db.slots.get slot = none) (now : ℤ) :
    ∃ db', db.execAll [.insertSlot ⟨slot, some uid, generationStart, some now⟩,
        .insertOrIgnoreGeneration ⟨slot, generationStart, .init, now⟩] = some db' ∧
      Took db db' slot uid generationStart := by
  have hno : ¬ ∃ r ∈ db.slots.rows, r.runtimeUuid.isSome ∧ r.runtimeUuid = some uid := by
    rintro ⟨r, hr, -, huid⟩
    exact slotOf_eq_none_iff.mp hunheld r.slot
      (occupant_eq_some_iff.mpr ⟨r, Rows.get_eq_some_iff.mpr ⟨hr, rfl⟩, huid⟩)
  have hgen : db.generationOf slot = none := by rw [Db.generationOf, hrow]; rfl
  obtain ⟨slots, hslots, -⟩ := Rows.insert_of_fresh
    (t := db.slots) (r := ⟨slot, some uid, generationStart, some now⟩) hrow
  have hget := Rows.get_of_insert hslots
  have hfresh : db.slotGenerations.get (slot, generationStart) = none := by
    refine fresh_generation ?_
    rw [hdb.unused hgen]
    exact List.not_mem_nil
  have hlog := Rows.insertOrIgnore_of_fresh
    (t := db.slotGenerations) (r := ⟨slot, generationStart, .init, now⟩) hfresh
  refine ⟨{ db with
    slots
    slotGenerations := db.slotGenerations.insertOrIgnore ⟨slot, generationStart, .init, now⟩ },
    ?_, ?_⟩
  · rw [Db.execAll, Db.exec, if_neg hno, hslots, Option.map_some, Option.bind_some, Db.execAll,
      Db.exec, Option.bind_some, Db.execAll]
  refine ⟨?_, slotOf_eq_none_iff.mp hunheld, by rw [hgen]; rfl, ?_, ?_, ?_, rfl, rfl⟩
  · rw [Db.occupant, hrow]
    rfl
  · refine holds_iff.mpr ⟨⟨slot, some uid, generationStart, some now⟩, ?_, rfl, rfl⟩
    rw [hget, if_pos rfl]
  · intro k hk
    exact (hget k).trans (if_neg (fun h => hk h.symm))
  · intro k
    rw [ledger_append hlog rfl]
    by_cases hk : k = slot
    · rw [if_pos hk, if_pos ⟨hk, hgen⟩]
    · rw [if_neg hk, if_neg (fun hand => hk hand.1)]

lemma freed_vacate {row : SlotRow} {log : Rows LedgerRow fun r => (r.slot, r.generation)}
    {event : LedgerEvent} (hrow : db.slots.get row.slot = some row)
    (huid : row.runtimeUuid = some uid)
    (hlog : log.rows = db.slotGenerations.rows ++ [⟨row.slot, row.generation + 1, event, now⟩]) :
    Freed db { db with
      slots := db.slots.modify (SlotRow.vacate row.slot (row.generation + 1)) (by simp)
      slotGenerations := log } row.slot uid row.generation := by
  have hget := get_vacate db.slots row.slot (row.generation + 1)
  refine ⟨holds_iff.mpr ⟨row, hrow, huid, rfl⟩, ?_, ?_, ?_, ?_, rfl, rfl⟩
  · rw [Db.occupant, hget, if_pos rfl, hrow]
    rfl
  · rw [Db.generationOf, hget, if_pos rfl, hrow]
    rfl
  · intro k hk
    exact (hget k).trans (if_neg hk)
  · exact ledger_append hlog rfl

lemma locked_spec (hdb : Wf db) {op : Op} {n : ℕ} {todo : List Statement} {answer : Answer}
    (h : op.locked n db = .ok (todo, answer)) :
    ∃ c, (Conn.mk db none).execAll todo = some c ∧ c.committed = db ∧ Moves op db c.view := by
  -- a section of statements that keep slots and ledger
  have hkept : ∀ {st : Statement} {db' : Db}, st ≠ .beginImmediate → db.exec st = some db' →
      Kept db db' → op.releases = none → Marks op db db' → todo = [st] →
      ∃ c, (Conn.mk db none).execAll todo = some c ∧ c.committed = db ∧ Moves op db c.view := by
    rintro st db' hne hst hkeeps hop hmarks rfl
    have hall : (Conn.mk db none).view.execAll [st] = some db' := by
      rw [Db.execAll]
      exact (congrArg (Option.bind · _) hst)
    obtain ⟨c, hc, hcommitted, hview⟩ := Conn.execAll_view (by simpa using Ne.symm hne) _ hall
    exact ⟨c, hc, hcommitted, hview ▸ .kept hop hkeeps hmarks⟩
  cases op with
  | lookup uid => cases h
  | assign uid now =>
    simp only [Op.locked] at h
    cases hunheld : db.slotOf uid with
    | some row => rw [hunheld] at h; cases h
    | none =>
    cases hfree : db.lowestFree n with
    | none => rw [hunheld, hfree] at h; cases h
    | some slot =>
    cases hrow : db.slots.get slot with
    | some row =>
      simp only [hunheld, hfree, hrow, Except.ok.injEq, Prod.mk.injEq] at h
      obtain ⟨rfl, -⟩ := h
      obtain ⟨db', hexec, htook⟩ := took_occupy hunheld (mem_lowestFree hfree) hrow now
      obtain ⟨c, hc, hcommitted, hview⟩ := Conn.execAll_view (by simp) (Conn.mk db none) hexec
      exact ⟨c, hc, hcommitted, hview ▸ .took htook⟩
    | none =>
      simp only [hunheld, hfree, hrow, Except.ok.injEq, Prod.mk.injEq] at h
      obtain ⟨rfl, -⟩ := h
      obtain ⟨db', hexec, htook⟩ := took_insert hdb hunheld hrow now
      obtain ⟨c, hc, hcommitted, hview⟩ := Conn.execAll_view (by simp) (Conn.mk db none) hexec
      exact ⟨c, hc, hcommitted, hview ▸ .took htook⟩
  | release uid now =>
    simp only [Op.locked] at h
    cases hheld : db.slotOf uid with
    | none => rw [hheld] at h; cases h
    | some row =>
      simp only [hheld, Except.ok.injEq, Prod.mk.injEq] at h
      obtain ⟨rfl, -⟩ := h
      obtain ⟨hrow, huid⟩ := of_slotOf hheld
      have hfresh := fresh_generation (hdb.next_fresh (holds_of_slotOf hheld).2)
      have hlog := Rows.insertOrIgnore_of_fresh (t := db.slotGenerations)
        (r := ⟨row.slot, row.generation + 1, .release, now⟩) hfresh
      have hall : (Conn.mk db none).view.execAll [.vacate row.slot (row.generation + 1),
          .insertOrIgnoreGeneration ⟨row.slot, row.generation + 1, .release, now⟩] =
          some { db with
            slots := db.slots.modify (SlotRow.vacate row.slot (row.generation + 1)) (by simp)
            slotGenerations := db.slotGenerations.insertOrIgnore
              ⟨row.slot, row.generation + 1, .release, now⟩ } := rfl
      obtain ⟨c, hc, hcommitted, hview⟩ := Conn.execAll_view (by simp) _ hall
      exact ⟨c, hc, hcommitted, hview ▸ .freed rfl (freed_vacate hrow huid hlog)⟩
  | releaseAfterTombstone args =>
    simp only [Op.locked] at h
    cases hheld : db.slotOf args.runtimeUuid with
    | none => rw [hheld] at h; cases h
    | some row =>
      simp only [hheld] at h
      split at h
      · cases h
      rename_i hagree
      obtain ⟨hslot, hgen⟩ := not_or.mp hagree
      obtain hslot : row.slot = args.slot := not_not.mp hslot
      obtain hgen : row.generation = args.generation := not_not.mp hgen
      simp only [Except.ok.injEq, Prod.mk.injEq] at h
      obtain ⟨rfl, -⟩ := h
      obtain ⟨hrow, huid⟩ := of_slotOf hheld
      have hfresh := fresh_generation (hdb.next_fresh (holds_of_slotOf hheld).2)
      rw [← hslot, ← hgen]
      obtain ⟨log, hins, hlog⟩ := Rows.insert_of_fresh (t := db.slotGenerations)
        (r := ⟨row.slot, row.generation + 1, .release, args.now⟩) hfresh
      have hall : (Conn.mk db (some db)).view.execAll [.vacate row.slot (row.generation + 1),
          .insertGeneration ⟨row.slot, row.generation + 1, .release, args.now⟩] =
          some { db with
            slots := db.slots.modify (SlotRow.vacate row.slot (row.generation + 1)) (by simp)
            slotGenerations := log } := by
        rw [Db.execAll, Db.exec, Option.bind_some, Db.execAll, Db.exec]
        exact congrArg (fun o => (Option.map _ o).bind _) hins
      obtain ⟨c, hc, hcommitted, hview⟩ := Conn.execAll_view (by simp) _ hall
      exact ⟨c, hc, hcommitted, hview ▸ .freed rfl (freed_vacate hrow huid hlog)⟩
  | quarantineSlot slot reason now =>
    simp only [Op.locked, Except.ok.injEq, Prod.mk.injEq] at h
    refine hkept (by simp) rfl ?_ rfl ?_ h.1.symm
    · exact ⟨rfl, rfl⟩
    · refine ⟨.inr id, fun k hk => ?_⟩
      rw [Db.isQuarantined, Rows.get_insertOrReplace] at hk
      by_cases hslot : slot = k
      · exact .inr ⟨reason, now, by rw [hslot]⟩
      · rw [if_neg hslot] at hk
        exact .inl hk
  | clearQuarantine args =>
    simp only [Op.locked, Except.ok.injEq, Prod.mk.injEq] at h
    refine hkept (by simp) rfl ?_ rfl ?_ h.1.symm
    · exact ⟨rfl, rfl⟩
    · refine ⟨.inr id, fun k hk => .inl ?_⟩
      rw [Db.isQuarantined, Rows.get_delete] at hk
      cases hget : db.slotQuarantine.get k with
      | none => rw [hget] at hk; cases hk
      | some row => rw [Db.isQuarantined, hget]; rfl
  | blockAllocation reason now =>
    simp only [Op.locked, Except.ok.injEq, Prod.mk.injEq] at h
    refine hkept (by simp) rfl ?_ rfl ?_ h.1.symm
    · exact ⟨rfl, rfl⟩
    · exact ⟨.inl ⟨reason, now, rfl⟩, fun _ => .inl⟩
  | clearAllocationBlock operatorIdentity evidenceReference =>
    simp only [Op.locked, Except.ok.injEq, Prod.mk.injEq] at h
    refine hkept (by simp) rfl ?_ rfl ?_ h.1.symm
    · exact ⟨rfl, rfl⟩
    · exact ⟨.inr fun _ => rfl, fun _ => .inl⟩

end SlotStore
end GuvFX
