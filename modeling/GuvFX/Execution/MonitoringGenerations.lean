/-
# The generations of the slots

The occupancies of a slot are numbered.  A reservation takes the highest number of the slot plus one
and holds the lock of the gateway until its row is there, so reservations alone number the
occupancies of every slot without a gap.  A registration that corrects the local port moves the row
to another slot with the number that it has.  The occupants of accounts and slots, and the ceiling on
the routes of a host, do not depend on this.
-/
import GuvFX.Execution.MonitoringSystem

namespace GuvFX
namespace Monitoring

open Runs

variable {s : State} {a : Action} {r r' : MonitoringRoute}

/-! ### The highest generation of a slot -/

lemma mem_slotGenerations {routes : Table MonitoringRoute} {slot : Slot} {g : ℕ} :
    g ∈ slotGenerations routes slot ↔
      ∃ k r, routes.get k = some r ∧ r.slot = slot ∧ r.allocationGeneration = g := by
  rw [slotGenerations, List.mem_map]
  constructor
  · rintro ⟨⟨k, r⟩, hmem, rfl⟩
    obtain ⟨hget, hslot⟩ := Table.mem_filter.mp hmem
    exact ⟨k, r, hget, of_decide_eq_true hslot, rfl⟩
  · rintro ⟨k, r, hget, hslot, rfl⟩
    exact ⟨(k, r), Table.mem_filter.mpr ⟨hget, decide_eq_true hslot⟩, rfl⟩

lemma maxGeneration_le_iff {routes : Table MonitoringRoute} {slot : Slot} {n : ℕ} :
    maxGeneration routes slot ≤ n ↔ ∀ g ∈ slotGenerations routes slot, g ≤ n := by
  rw [maxGeneration]
  induction slotGenerations routes slot with
  | nil => simp
  | cons g gs ih => simp [ih]

lemma le_maxGeneration {routes : Table MonitoringRoute} {slot : Slot} {g : ℕ}
    (h : g ∈ slotGenerations routes slot) : g ≤ maxGeneration routes slot :=
  maxGeneration_le_iff.mp (le_refl _) g h

lemma maxGeneration_modify {routes : Table MonitoringRoute} {id : ℕ} {r r' : MonitoringRoute}
    (hrow : routes.get id = some r) (hslot : r'.slot = r.slot)
    (hgeneration : r'.allocationGeneration = r.allocationGeneration) (slot : Slot) :
    maxGeneration (routes.modify id fun _ => r') slot = maxGeneration routes slot := by
  refine le_antisymm ?_ ?_
  · refine maxGeneration_le_iff.mpr fun g hg => le_maxGeneration ?_
    obtain ⟨k, x, hx, hxslot, hxgen⟩ := mem_slotGenerations.mp hg
    rcases get_modify_cases hrow hx with ⟨rfl, rfl⟩ | ⟨-, hget⟩
    · exact mem_slotGenerations.mpr
        ⟨k, r, hrow, hslot.symm.trans hxslot, hgeneration.symm.trans hxgen⟩
    · exact mem_slotGenerations.mpr ⟨k, x, hget, hxslot, hxgen⟩
  · refine maxGeneration_le_iff.mpr fun g hg => le_maxGeneration ?_
    obtain ⟨k, x, hx, hxslot, hxgen⟩ := mem_slotGenerations.mp hg
    by_cases hk : k = id
    · subst hk
      rw [hrow] at hx
      cases hx
      refine mem_slotGenerations.mpr
        ⟨k, r', ?_, hslot.trans hxslot, hgeneration.trans hxgen⟩
      rw [Table.get_modify_self, hrow]
      rfl
    · refine mem_slotGenerations.mpr ⟨k, x, ?_, hxslot, hxgen⟩
      rw [Table.get_modify_of_ne _ _ hk]
      exact hx

lemma maxGeneration_insert {routes : Table MonitoringRoute} {r : MonitoringRoute}
    (hgeneration : r.allocationGeneration = nextGeneration routes r.slot) (slot : Slot) :
    maxGeneration (routes.insert routes.fresh r) slot =
      if r.slot = slot then maxGeneration routes slot + 1 else maxGeneration routes slot := by
  have hgens : slotGenerations (routes.insert routes.fresh r) slot =
      slotGenerations routes slot ++ if r.slot = slot then [r.allocationGeneration] else [] := by
    rw [slotGenerations, Table.filter_insert _ (Table.fresh_not_mem routes), List.map_append,
      slotGenerations]
    by_cases hslot : r.slot = slot <;> simp [hslot]
  by_cases hslot : r.slot = slot
  · rw [if_pos hslot] at hgens ⊢
    rw [hslot, nextGeneration] at hgeneration
    refine le_antisymm ?_ ?_
    · refine maxGeneration_le_iff.mpr fun g hg => ?_
      rw [hgens, List.mem_append, List.mem_singleton, hgeneration] at hg
      rcases hg with hg | hg
      · exact (le_maxGeneration hg).trans (Nat.le_succ _)
      · exact hg.le
    · refine le_maxGeneration ?_
      rw [hgens, List.mem_append, List.mem_singleton, hgeneration]
      exact .inr rfl
  · rw [if_neg hslot] at hgens ⊢
    rw [maxGeneration, hgens, List.append_nil, maxGeneration]

/-! ### The occupancies of a slot -/

/-- The key of the route that a step may write. -/
def touched (s : State) (a : Action) : Option ℕ :=
  match operation a, a with
  | some (c, _), _ => (s.callers c).map Prod.fst
  | none, .createRoute _ => some s.routes.fresh
  | none, _ => none

/-- The generation of the occupancy of a slot that begins in a step: a row comes to the slot that
was not on it before. -/
def beginsOccupancy (slot : Slot) (s : State) (a : Action) : Option ℕ :=
  (touched s a).bind fun k => ((step s a).routes.get k).bind fun r' =>
    if r'.slot = slot ∧ (s.routes.get k).all (fun r => r.slot ≠ slot) then
      some r'.allocationGeneration
    else none

/-- A registration of a reserved route gives no port, or the port that the route has. -/
def KeepsPort (s : State) (a : Action) : Prop :=
  match a with
  | .registerRoute c _ (some port) =>
    ∀ r ∈ (s.callers c).bind fun e => s.routes.get e.1, r.state = .reserved → port = r.localPort
  | _ => True

instance (s : State) : ∀ a, Decidable (KeepsPort s a)
  | .registerRoute c _ (some port) => inferInstanceAs (Decidable
      (∀ r ∈ (s.callers c).bind fun e => s.routes.get e.1,
        r.state = .reserved → port = r.localPort))
  | .registerRoute _ _ none | .ensureGateway _ | .editGateway .. | .load .. | .verifyRoute ..
  | .setReadiness .. | .reconcileRoute .. | .drainRoute _ | .tombstoneRoute .. | .beginReserve ..
  | .lockGateway _ | .checkExisting _ | .checkCapacity .. | .scanPort _ | .numberGeneration _
  | .createRoute _ => .isTrue trivial

lemma slot_of_moves {c id : ℕ} {copy : MonitoringRoute} (hkeeps : KeepsPort s a)
    {fn : MonitoringRoute → ℕ → MonitoringRoute → Outcome} (hop : operation a = some (c, fn))
    (hcaller : s.callers c = some (id, copy)) (hrow : s.routes.get id = some r)
    (hsame : SameOccupancy r r') (hmoves : Moves a r r') : r'.slot = r.slot := by
  have hport : r'.localPort = r.localPort := by
    cases hmoves with
    | registered c' endpoint localPort haction hbefore _ hport =>
      subst haction
      cases hop
      cases localPort with
      | none => exact hport
      | some port =>
        refine hport.trans (hkeeps r ?_ hbefore)
        rw [hcaller]
        exact hrow
    | verified _ _ hport | promoted _ _ _ hport | kept _ hport | drained _ _ _ _ hport
      | tombstoned _ _ _ _ hport | quarantined _ _ hport => exact hport
  rw [MonitoringRoute.slot, MonitoringRoute.slot, hsame.host, hport]

lemma beginsOccupancy_of_same {slot : Slot} (hsame : (step s a).routes = s.routes) :
    beginsOccupancy slot s a = none := by
  rw [beginsOccupancy, hsame]
  cases touched s a with
  | none => rfl
  | some k =>
    rw [Option.bind_some]
    cases s.routes.get k with
    | none => rfl
    | some r =>
      rw [Option.bind_some, if_neg]
      rintro ⟨hslot, hother⟩
      exact of_decide_eq_true hother hslot

/-! ### The numbers along a run -/

lemma reservations_operateBy (s : State) (c : ℕ)
    (fn : MonitoringRoute → ℕ → MonitoringRoute → Outcome) :
    (s.operateBy c fn).reservations = s.reservations := by
  rw [State.operateBy]
  split <;> rfl

/-- The place carries no number. -/
def Reservation.Unnumbered : Reservation → Prop
  | .working _ _ (.numbered ..) => False
  | .working .. | .idle | .done _ => True

/-- What a step does to the reservations: nothing, or one of them moves to a place without a number,
or one of them takes the next number of its slot. -/
inductive Placed (s : State) (a : Action) : (ℕ → Reservation) → Prop
  | same : Placed s a s.reservations
  | moved (q : ℕ) (place : Reservation) (unnumbered : place.Unnumbered) :
      Placed s a (Function.update s.reservations q place)
  | numbered (q : ℕ) (req : Request) (attempt : ℕ) (ceiling : Option ℕ) (port : ℕ)
      (routes : (step s a).routes = s.routes) :
      Placed s a (Function.update s.reservations q (.working req attempt
        (.numbered ceiling port (nextGeneration s.routes (req.gateway.hostKey, port)))))

lemma step_placed (s : State) (a : Action) : Placed s a (step s a).reservations := by
  cases hop : operation a with
  | some e =>
    rw [step, hop]
    dsimp only
    rw [reservations_operateBy]
    exact .same
  | none =>
    have hstep : step s a = otherStep s a := by rw [step, hop]
    rw [hstep]
    cases a with
    | ensureGateway hostKey =>
      dsimp only [otherStep]
      split_ifs <;> exact .same
    | editGateway | load => exact .same
    | numberGeneration q =>
      dsimp only [otherStep] at hstep ⊢
      split
      · rename_i req attempt ceiling port hplace
        refine .numbered q req attempt ceiling port ?_
        rw [hstep, hplace]
        rfl
      · exact .same
    | beginReserve q | lockGateway q | checkExisting q | checkCapacity q | scanPort q
      | createRoute q =>
      dsimp only [otherStep]
      repeat' split
      all_goals first
        | exact .same
        | exact .moved _ _ trivial
    | _ => cases hop

lemma numbered_origin {p : ℕ} {req : Request} {attempt : ℕ} {ceiling : Option ℕ}
    {port generation : ℕ}
    (h : (step s a).reservations p = .working req attempt (.numbered ceiling port generation)) :
    s.reservations p = .working req attempt (.numbered ceiling port generation) ∨
      ((step s a).routes = s.routes ∧
        generation = nextGeneration s.routes (req.gateway.hostKey, port)) := by
  have hplaced := step_placed s a
  generalize (step s a).reservations = reservations at h hplaced
  cases hplaced with
  | same => exact .inl h
  | moved q place hunnumbered =>
    by_cases hpq : p = q
    · rw [hpq, Function.update_self] at h
      rw [h] at hunnumbered
      exact hunnumbered.elim
    · rw [Function.update_of_ne hpq] at h
      exact .inl h
  | numbered q req' attempt' ceiling' port' hroutes =>
    by_cases hpq : p = q
    · rw [hpq, Function.update_self] at h
      cases h
      exact .inr ⟨hroutes, rfl⟩
    · rw [Function.update_of_ne hpq] at h
      exact .inl h

/-- The occupancies of every slot so far carry the numbers up to the highest of the slot, and the
number that a reservation has taken is still the next one. -/
structure Numbered (as : List Action) (s : State) : Prop where
  next : ∀ p req attempt ceiling port generation,
    s.reservations p = .working req attempt (.numbered ceiling port generation) →
    generation = nextGeneration s.routes (req.gateway.hostKey, port)
  numbers : ∀ slot, trace step (beginsOccupancy slot) .initial as =
    List.range' 1 (maxGeneration s.routes slot)

lemma numbered_step {as : List Action} (hinv : Inv (run step .initial as))
    (h : Numbered as (run step .initial as)) (ha : KeepsPort (run step .initial as) a) :
    Numbered (as ++ [a]) (step (run step .initial as) a) := by
  have htrace : ∀ slot, trace step (beginsOccupancy slot) .initial (as ++ [a]) =
      List.range' 1 (maxGeneration (run step .initial as).routes slot) ++
        (beginsOccupancy slot (run step .initial as) a).toList := by
    intro slot
    rw [trace_concat, h.numbers slot]
  generalize run step .initial as = s at *
  have hwrite := step_write s a
  -- The table of the routes after the step, by the kind of write.
  have hnext : (∀ slot, maxGeneration (step s a).routes slot = maxGeneration s.routes slot) →
      ∀ p req attempt ceiling port generation,
        (step s a).reservations p = .working req attempt (.numbered ceiling port generation) →
        generation = nextGeneration (step s a).routes (req.gateway.hostKey, port) := by
    intro hmax p req attempt ceiling port generation hp
    rw [nextGeneration, hmax]
    rcases numbered_origin hp with hold | ⟨-, hnew⟩
    · exact h.next p req attempt ceiling port generation hold
    · exact hnew
  generalize hroutes : (step s a).routes = routes at hwrite
  cases hwrite with
  | same =>
    refine ⟨hnext fun slot => by rw [hroutes], fun slot => ?_⟩
    rw [htrace, beginsOccupancy_of_same hroutes, hroutes, Option.toList_none, List.append_nil]
  | saved c fn id copy r r' hop hcaller hrow hrun hfits =>
    obtain ⟨hsame, hmoves⟩ := operation_saved hop (hinv.no_drift hcaller hrow) hrun
    have hslot := slot_of_moves ha hop hcaller hrow hsame hmoves
    have hmax : ∀ slot, maxGeneration (step s a).routes slot = maxGeneration s.routes slot := by
      intro slot
      rw [hroutes]
      exact maxGeneration_modify hrow hslot hsame.generation slot
    refine ⟨hnext hmax, fun slot => ?_⟩
    have hnone : beginsOccupancy slot s a = none := by
      have htouched : touched s a = some id := by
        simp only [touched, hop, hcaller, Option.map_some]
      rw [beginsOccupancy, htouched, Option.bind_some, hroutes, Table.get_modify_self, hrow,
        Option.map_some, Option.bind_some, if_neg]
      rintro ⟨hr', hother⟩
      exact of_decide_eq_true hother (hslot.symm.trans hr')
    rw [htrace, hnone, hmax, Option.toList_none, List.append_nil]
  | created p req attempt ceiling port generation haction hplace hfits =>
    have hrow : (req.row port generation).slot = (req.gateway.hostKey, port) := rfl
    have hgeneration : (req.row port generation).allocationGeneration =
        nextGeneration s.routes (req.row port generation).slot :=
      h.next p req attempt ceiling port generation hplace
    have hmax := maxGeneration_insert hgeneration
    have hbegins : ∀ slot, beginsOccupancy slot s a =
        if (req.row port generation).slot = slot then some generation else none := by
      intro slot
      have htouched : touched s a = some s.routes.fresh := by
        rw [haction]
        rfl
      have hbefore : s.routes.get s.routes.fresh = none :=
        Table.get_eq_none_iff.mpr (Table.fresh_not_mem _)
      rw [beginsOccupancy, htouched, Option.bind_some, hroutes,
        Table.get_insert _ (Table.fresh_not_mem _), if_pos rfl, Option.bind_some, hbefore]
      simp only [Option.all_none, and_true]
      rfl
    have hdone : ∃ result, (step s a).reservations p = .done result := by
      refine ⟨.ok (routeResult "route_allocated" s.routes.fresh (req.row port generation)), ?_⟩
      rw [haction]
      dsimp only [step, operation, otherStep]
      rw [hplace]
      dsimp only
      rw [if_pos hfits]
      exact Function.update_self ..
    refine ⟨?_, fun slot => ?_⟩
    · intro q req' attempt' ceiling' port' generation' hq
      rcases numbered_origin hq with hold | ⟨hsame, -⟩
      · have hother : (req.row port generation).slot ≠ (req'.gateway.hostKey, port') := by
          intro hslot
          have hpq : p = q := hinv.host_exclusive hplace hold (fun hn => nomatch hn)
            (fun hn => nomatch hn) (congrArg Prod.fst hslot)
          obtain ⟨result, hresult⟩ := hdone
          rw [hpq, hq] at hresult
          cases hresult
        rw [nextGeneration, hroutes, hmax, if_neg hother]
        exact h.next q req' attempt' ceiling' port' generation' hold
      · have hfresh : s.routes.get s.routes.fresh = none :=
          Table.get_eq_none_iff.mpr (Table.fresh_not_mem _)
        rw [← hsame, hroutes, Table.get_insert _ (Table.fresh_not_mem _), if_pos] at hfresh
        · cases hfresh
        · rw [hsame] at hroutes
          rw [← hroutes]
    · rw [htrace, hroutes, hmax, hbegins]
      by_cases hslot : (req.row port generation).slot = slot
      · rw [if_pos hslot, if_pos hslot, Option.toList_some, List.range'_concat]
        have hnumber : generation = 1 + 1 * maxGeneration s.routes slot := by
          rw [hslot] at hgeneration
          rw [Nat.one_mul, Nat.add_comm]
          exact hgeneration
        rw [hnumber]
      · rw [if_neg hslot, if_neg hslot, Option.toList_none, List.append_nil]

/-! ### The claim about the slots -/

/-- In a run the occupancies of every slot are numbered in order without a gap, every slot and every
account has one occupant, and a reservation leaves at most as many routes in use on its host as the
ceiling that it has read. -/
structure SlotsInOrder (as : List Action) : Prop where
  consecutive : ∀ slot, trace step (beginsOccupancy slot) .initial as =
    List.range' 1 (trace step (beginsOccupancy slot) .initial as).length
  oneOccupant : ∀ pre k r k' r', pre <+: as → (run step .initial pre).routes.get k = some r →
    (run step .initial pre).routes.get k' = some r' → r.occupies = true → r'.occupies = true →
    r.slot = r'.slot ∨ r.tradingAccountId = r'.tradingAccountId → k = k'
  ceiling : ∀ pre p req attempt m port generation, pre <+: as →
    (run step .initial pre).reservations p =
      .working req attempt (.numbered (some m) port generation) →
    activeRouteCount (step (run step .initial pre) (.createRoute p)).routes
      req.gateway.hostKey ≤ m

lemma oneOccupant_of_inv (h : Inv s) {k k' : ℕ} (hr : s.routes.get k = some r)
    (hr' : s.routes.get k' = some r') (hoccupies : r.occupies = true)
    (hoccupies' : r'.occupies = true)
    (hshared : r.slot = r'.slot ∨ r.tradingAccountId = r'.tradingAccountId) : k = k' := by
  by_contra hne
  have hno := h.valid k r k' r' hr hr' hne
  rw [clashes, hoccupies, hoccupies'] at hno
  rcases hshared with hslot | haccount
  · simp [hslot] at hno
  · simp [haccount] at hno

lemma ceiling_of_inv (h : Inv s) {p : ℕ} {req : Request} {attempt m port generation : ℕ}
    (hp : s.reservations p = .working req attempt (.numbered (some m) port generation)) :
    activeRouteCount (step s (.createRoute p)).routes req.gateway.hostKey ≤ m := by
  have hroom := h.room p req attempt _ m hp rfl
  have hwrite := step_write s (.createRoute p)
  generalize (step s (.createRoute p)).routes = routes at hwrite
  cases hwrite with
  | same => exact hroom.le
  | saved c fn id copy r r' hop => cases hop
  | created p' req' attempt' ceiling' port' generation' haction hplace hfits =>
    cases haction
    rw [hp] at hplace
    cases hplace
    rw [activeRouteCount, activeRoutes, Table.filter_insert _ (Table.fresh_not_mem _),
      List.length_append]
    have hone : (if decide ((req.row port generation).hostKey = req.gateway.hostKey) &&
        (req.row port generation).occupies then [(s.routes.fresh, req.row port generation)]
        else []).length ≤ 1 := by
      split_ifs
      · exact le_refl _
      · exact Nat.zero_le _
    exact (Nat.add_le_add_left hone _).trans hroom

/-- The slots are in order in every run in which the registrations keep the ports. -/
theorem slotsInOrder_of_keepsPort (as : List Action) (h : StepsMeet step KeepsPort .initial as) :
    SlotsInOrder as where
  consecutive := by
    intro slot
    have hnumbered : Inv (run step .initial as) ∧ Numbered as (run step .initial as) := by
      refine run_history_of_meets (Q := fun as s => Inv s ∧ Numbered as s)
        ⟨inv_initial, fun _ _ _ _ _ _ hp => (nomatch hp), fun _ => rfl⟩ ?_ h
      exact fun as a has ha => ⟨inv_step has.1 a, numbered_step has.1 has.2 ha⟩
    rw [hnumbered.2.numbers slot, List.length_range']
  oneOccupant := fun pre k r k' r' _ => oneOccupant_of_inv (inv_run pre)
  ceiling := fun pre p req attempt m port generation _ => ceiling_of_inv (inv_run pre)

/-! ### A corrected port -/

/-- The steps of a reservation that is alone. -/
def reserveRun (p account gatewayId : ℕ) : List Action :=
  [.beginReserve p true account gatewayId none, .lockGateway p, .checkExisting p,
    .checkCapacity p (some 4), .scanPort p, .numberGeneration p, .createRoute p]

/-- The same port is occupied twice, by accounts 1 and 2, and the second one is registered. -/
def reusedRun : List Action :=
  ([.ensureGateway "host"] : List Action) ++ reserveRun 0 1 1 ++
    ([.load 0 1, .tombstoneRoute 0 "retired"] : List Action) ++ reserveRun 0 2 1 ++
    ([.load 0 2, .registerRoute 0 (some 5) (some 8800)] : List Action)

theorem slotsInOrder_reusedRun : SlotsInOrder reusedRun ∧
    trace step (beginsOccupancy ("host", 8800)) .initial reusedRun = [1, 2] := by
  exact ⟨slotsInOrder_of_keepsPort reusedRun (by decide +kernel), by decide +kernel⟩

/-- The second occupant of a port is registered on the port of its endpoint, which nobody has
occupied before. -/
def correctedRun : List Action :=
  ([.ensureGateway "host"] : List Action) ++ reserveRun 0 1 1 ++
    ([.load 0 1, .tombstoneRoute 0 "retired"] : List Action) ++ reserveRun 0 2 1 ++
    ([.load 0 2, .registerRoute 0 (some 5) (some 8810)] : List Action)

/-- The first occupancy of the other port carries the number 2. -/
theorem slotsInOrder_broken : ¬ SlotsInOrder correctedRun := by
  intro h
  have hnumbers := h.consecutive ("host", 8810)
  revert hnumbers
  decide +kernel

end Monitoring
end GuvFX
