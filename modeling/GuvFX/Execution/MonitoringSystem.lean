/-
# The routes under concurrent operations

What an operation saves over the locked row of a route, what a step does to the table of the routes,
and the invariant of the system: the copies that callers hold agree with their rows about the
generation, so that a locked row has never drifted; the constraints of the table hold; a reservation
holds the lock of its gateway from its second stage on, and the room that it has found under the
ceiling stays.
-/
import GuvFX.Execution.MonitoringRoutes

namespace GuvFX
namespace Monitoring

open Runs

/-! ### What an operation saves -/

structure SameOccupancy (r r' : MonitoringRoute) : Prop where
  account : r'.tradingAccountId = r.tradingAccountId
  gateway : r'.gatewayId = r.gatewayId
  host : r'.hostKey = r.hostKey
  generation : r'.allocationGeneration = r.allocationGeneration

/-- The state of a route after an operation, for each kind of operation. -/
inductive Moves (a : Action) (r r' : MonitoringRoute) : Prop
  | registered (c : ℕ) (endpoint localPort : Option ℕ)
      (action : a = .registerRoute c endpoint localPort) (before : r.state = .reserved)
      (after : r'.state = .registered) (port : r'.localPort = localPort.getD r.localPort)
  | verified (before : r.state = .registered ∨ r.state = .verified ∨ r.state = .ready)
      (after : r'.state = .verified) (port : r'.localPort = r.localPort)
  | promoted (before : r.state = .verified) (after : r'.state = .ready)
      (readiness : r'.readiness = .monitoringReady) (port : r'.localPort = r.localPort)
  | kept (state : r'.state = r.state) (port : r'.localPort = r.localPort)
  | drained (c : ℕ) (action : a = .drainRoute c) (before : r.state ≠ .tombstoned)
      (after : r'.state = .draining) (port : r'.localPort = r.localPort)
  | tombstoned (c : ℕ) (reason : String) (action : a = .tombstoneRoute c reason)
      (after : r'.state = .tombstoned) (port : r'.localPort = r.localPort)
  | quarantined (before : r.state = .registered ∨ r.state = .verified ∨ r.state = .ready)
      (after : r'.state = .quarantined) (port : r'.localPort = r.localPort)

variable {a : Action} {id : ℕ} {r r' : MonitoringRoute}

variable {c k p : ℕ}

lemma registerRoute_saved {endpoint localPort : Option ℕ}
    (h : ((registerRoute endpoint localPort id r).write r).1 = some r') :
    SameOccupancy r r' ∧ Moves (.registerRoute c endpoint localPort) r r' := by
  rw [registerRoute] at h
  cases hstate : r.state with
  | reserved =>
    rw [hstate] at h
    cases h
    exact ⟨⟨rfl, rfl, rfl, rfl⟩, .registered c endpoint localPort rfl hstate rfl rfl⟩
  | _ =>
    rw [hstate] at h
    cases h

lemma verifyRoute_saved {expected attested : Identity} {now : Time}
    (h : ((verifyRoute expected attested now id r).write r).1 = some r') :
    SameOccupancy r r' ∧ Moves a r r' := by
  rw [verifyRoute] at h
  cases hstate : r.state with
  | registered | verified | ready =>
    rw [hstate] at h
    dsimp only at h
    split_ifs at h
    · cases h
      exact ⟨⟨rfl, rfl, rfl, rfl⟩, .quarantined (by simp [hstate]) rfl rfl⟩
    · cases h
      exact ⟨⟨rfl, rfl, rfl, rfl⟩, .verified (by simp [hstate]) rfl rfl⟩
  | reserved | draining | tombstoned | quarantined =>
    rw [hstate] at h
    cases h

lemma setReadiness_saved {readiness : Readiness} {reasonCode : String} {health : Option Health}
    {makeReady : Bool}
    (h : ((setReadiness readiness reasonCode health makeReady id r).write r).1 = some r') :
    SameOccupancy r r' ∧ Moves a r r' := by
  cases h
  refine ⟨⟨rfl, rfl, rfl, rfl⟩, ?_⟩
  by_cases hready : makeReady = true ∧ r.state = .verified ∧ readiness = .monitoringReady
  · exact .promoted hready.2.1 (if_pos hready) hready.2.2 rfl
  · exact .kept (if_neg hready) rfl

lemma drainRoute_saved (h : ((drainRoute id r).write r).1 = some r') :
    SameOccupancy r r' ∧ Moves (.drainRoute c) r r' := by
  rw [drainRoute] at h
  split_ifs at h with hstate
  · cases h
  · cases h
    exact ⟨⟨rfl, rfl, rfl, rfl⟩, .drained c rfl hstate rfl rfl⟩

lemma tombstoneRoute_saved {reason : String}
    (h : ((tombstoneRoute reason id r).write r).1 = some r') :
    SameOccupancy r r' ∧ Moves (.tombstoneRoute c reason) r r' := by
  rw [tombstoneRoute] at h
  split_ifs at h
  · cases h
  · cases h
    exact ⟨⟨rfl, rfl, rfl, rfl⟩, .tombstoned c reason rfl rfl rfl⟩

lemma operation_saved {fn : MonitoringRoute → ℕ → MonitoringRoute → Outcome} {host : String}
    {copy : MonitoringRoute} (hop : operation a = some (c, fn))
    (hdrift : checkDrift host r copy = none)
    (hsaved : (runLocked host copy r (fn copy id)).1 = some r') :
    SameOccupancy r r' ∧ Moves a r r' := by
  rw [runLocked, hdrift] at hsaved
  cases a with
  | registerRoute c endpoint localPort =>
    cases hop
    exact registerRoute_saved hsaved
  | verifyRoute c expected attested now =>
    cases hop
    exact verifyRoute_saved hsaved
  | setReadiness c readiness reasonCode health makeReady =>
    cases hop
    exact setReadiness_saved hsaved
  | reconcileRoute c o =>
    cases hop
    exact setReadiness_saved hsaved
  | drainRoute c =>
    cases hop
    exact drainRoute_saved hsaved
  | tombstoneRoute c reason =>
    cases hop
    exact tombstoneRoute_saved hsaved
  | _ => cases hop

lemma Moves.occupies (h : Moves a r r') (hoccupies : r'.occupies = true) : r.occupies = true := by
  have hstate : r'.state ≠ .tombstoned := by simpa [MonitoringRoute.occupies] using hoccupies
  have hbefore : r.state ≠ .tombstoned := by
    cases h with
    | registered _ _ _ _ before => simp [before]
    | verified before => rcases before with h | h | h <;> simp [h]
    | promoted before => simp [before]
    | kept state => rwa [state] at hstate
    | drained _ _ before => exact before
    | tombstoned _ _ _ after => exact absurd after hstate
    | quarantined before => rcases before with h | h | h <;> simp [h]
  simpa [MonitoringRoute.occupies] using hbefore

/-! ### What a step does to the table of the routes -/

/-- Nothing, or a caller saves the route of its copy, or a reservation creates its row. -/
inductive Write (s : State) (a : Action) : Table MonitoringRoute → Prop
  | same : Write s a s.routes
  | saved (c : ℕ) (fn : MonitoringRoute → ℕ → MonitoringRoute → Outcome) (id : ℕ)
      (copy r r' : MonitoringRoute) (op : operation a = some (c, fn))
      (caller : s.callers c = some (id, copy)) (row : s.routes.get id = some r)
      (write : (runLocked (gatewayHost s.gateways r) copy r (fn copy id)).1 = some r')
      (fits : admits s.routes id r' = true) : Write s a (s.routes.modify id fun _ => r')
  | created (p : ℕ) (req : Request) (attempt : ℕ) (ceiling : Option ℕ) (port generation : ℕ)
      (action : a = .createRoute p)
      (place : s.reservations p = .working req attempt (.numbered ceiling port generation))
      (fits : admits s.routes s.routes.fresh (req.row port generation) = true) :
      Write s a (s.routes.insert s.routes.fresh (req.row port generation))

lemma write_operateBy {s : State} {fn : MonitoringRoute → ℕ → MonitoringRoute → Outcome}
    (hop : operation a = some (c, fn)) : Write s a (s.operateBy c fn).routes := by
  rw [State.operateBy]
  cases hcaller : s.callers c with
  | none => exact .same
  | some e =>
    obtain ⟨id, copy⟩ := e
    dsimp only [operate]
    cases hrow : s.routes.get id with
    | none => exact .same
    | some r =>
      dsimp only
      cases hrun : runLocked (gatewayHost s.gateways r) copy r (fn copy id) with
      | mk saved result =>
        cases saved with
        | none => exact .same
        | some r' =>
          dsimp only
          split_ifs with hfits
          · exact .saved c fn id copy r r' hop hcaller hrow (by rw [hrun]) hfits
          · exact .same

lemma write_otherStep (s : State) (a : Action) : Write s a (otherStep s a).routes := by
  cases a with
  | createRoute p =>
    dsimp only [otherStep]
    cases hplace : s.reservations p with
    | idle | done => exact .same
    | working req attempt stage =>
      cases stage with
      | numbered ceiling port generation =>
        dsimp only
        split_ifs with hfits hattempt
        · exact .created p req attempt ceiling port generation rfl hplace hfits
        · exact .same
        · exact .same
      | _ => exact .same
  | ensureGateway hostKey =>
    dsimp only [otherStep]
    split_ifs <;> exact .same
  | beginReserve p enabled account gatewayId endpoint =>
    dsimp only [otherStep]
    repeat' split
    all_goals exact .same
  | lockGateway p | checkExisting p | checkCapacity p occupants | scanPort p | numberGeneration p =>
    dsimp only [otherStep]
    repeat' split
    all_goals exact .same
  | _ => exact .same

lemma step_write (s : State) (a : Action) : Write s a (step s a).routes := by
  rw [step]
  cases hop : operation a with
  | some e =>
    obtain ⟨c, fn⟩ := e
    exact write_operateBy hop
  | none => exact write_otherStep s a

/-! ### The invariant -/

/-- The ceiling that an attempt has found room under. -/
def Stage.ceiling : Stage → Option ℕ
  | .admitted ceiling | .placed ceiling _ | .numbered ceiling _ _ => ceiling
  | .waiting | .locked | .vacant => none

/-- A reservation past its first wait holds the lock of its gateway. -/
def holdsAt : Reservation → ℕ → Prop
  | .working req _ stage, row => stage ≠ .waiting ∧ row = req.gatewayId
  | .idle, _ | .done _, _ => False

structure Inv (s : State) : Prop where
  hosts : ∀ k g k' g', s.gateways.get k = some g → s.gateways.get k' = some g' →
    g.hostKey = g'.hostKey → k = k'
  gateway : ∀ k r, s.routes.get k = some r → gatewayHost s.gateways r = r.hostKey ∧
    ∃ g, s.gateways.get r.gatewayId = some g
  copies : ∀ c id copy, s.callers c = some (id, copy) → ∃ r, s.routes.get id = some r ∧
    r.allocationGeneration = copy.allocationGeneration
  valid : ∀ k r k' r', s.routes.get k = some r → s.routes.get k' = some r' → k ≠ k' →
    clashes r r' = false
  request : ∀ p req attempt stage, s.reservations p = .working req attempt stage →
    ∃ g, s.gateways.get req.gatewayId = some g ∧ g.hostKey = req.gateway.hostKey
  locks : Locks.Held (fun p => holdsAt (s.reservations p)) s.locks
  room : ∀ p req attempt stage m, s.reservations p = .working req attempt stage →
    stage.ceiling = some m → activeRouteCount s.routes req.gateway.hostKey < m

variable {s : State}

lemma inv_initial : Inv .initial where
  hosts := fun _ _ _ _ h => nomatch h
  gateway := fun _ _ h => nomatch h
  copies := fun _ _ _ h => nomatch h
  valid := fun _ _ _ _ h => nomatch h
  request := fun _ _ _ _ h => nomatch h
  locks := Locks.held_free
  room := fun _ _ _ _ _ h => nomatch h

lemma Inv.no_drift (h : Inv s) {copy : MonitoringRoute} (hcaller : s.callers c = some (id, copy))
    (hrow : s.routes.get id = some r) : checkDrift (gatewayHost s.gateways r) r copy = none := by
  obtain ⟨r', hr', hgeneration⟩ := h.copies c id copy hcaller
  rw [hrow] at hr'
  cases hr'
  rw [checkDrift, if_neg]
  rintro (hhost | hgen)
  · exact hhost (h.gateway id r hrow).1.symm
  · exact hgen hgeneration

lemma clashes_comm (r r' : MonitoringRoute) : clashes r r' = clashes r' r := by
  simp only [clashes, Bool.and_comm r.occupies, eq_comm (a := r.tradingAccountId),
    eq_comm (a := r.slot), eq_comm (a := r.allocationGeneration)]
  congr 1
  by_cases hendpoint : r.executionEndpointId = r'.executionEndpointId
  · simp [hendpoint]
  · simp [hendpoint, Ne.symm hendpoint]

lemma not_clashes_of_admits {routes : Table MonitoringRoute} {k' : ℕ}
    (h : admits routes k r = true) (hget : routes.get k' = some r') (hne : k' ≠ k) :
    clashes r r' = false := by
  have hall := List.all_eq_true.mp h (k', r') (Table.mem_rows_of_get hget)
  simpa [hne] using hall

/-- A save keeps the constraints. -/
lemma valid_modify {routes : Table MonitoringRoute}
    (hvalid : ∀ k r k' r', routes.get k = some r → routes.get k' = some r' → k ≠ k' →
      clashes r r' = false) (hfits : admits routes k r = true) {k₁ k₂ : ℕ}
    {r₁ r₂ : MonitoringRoute} (h₁ : (routes.modify k fun _ => r).get k₁ = some r₁)
    (h₂ : (routes.modify k fun _ => r).get k₂ = some r₂) (hne : k₁ ≠ k₂) :
    clashes r₁ r₂ = false := by
  rw [Table.get_modify] at h₁ h₂
  by_cases hk₁ : k₁ = k
  · rw [if_pos hk₁] at h₁
    obtain ⟨-, -, rfl⟩ := Option.map_eq_some_iff.mp h₁
    have hk₂ : k₂ ≠ k := fun hk₂ => hne (hk₁.trans hk₂.symm)
    rw [if_neg hk₂] at h₂
    exact not_clashes_of_admits hfits h₂ hk₂
  · rw [if_neg hk₁] at h₁
    by_cases hk₂ : k₂ = k
    · rw [if_pos hk₂] at h₂
      obtain ⟨-, -, rfl⟩ := Option.map_eq_some_iff.mp h₂
      rw [clashes_comm]
      exact not_clashes_of_admits hfits h₁ hk₁
    · rw [if_neg hk₂] at h₂
      exact hvalid k₁ r₁ k₂ r₂ h₁ h₂ hne

lemma valid_insert {routes : Table MonitoringRoute}
    (hvalid : ∀ k r k' r', routes.get k = some r → routes.get k' = some r' → k ≠ k' →
      clashes r r' = false) (hfits : admits routes routes.fresh r = true) {k₁ k₂ : ℕ}
    {r₁ r₂ : MonitoringRoute} (h₁ : (routes.insert routes.fresh r).get k₁ = some r₁)
    (h₂ : (routes.insert routes.fresh r).get k₂ = some r₂) (hne : k₁ ≠ k₂) :
    clashes r₁ r₂ = false := by
  rw [Table.get_insert _ (Table.fresh_not_mem _)] at h₁ h₂
  by_cases hk₁ : k₁ = routes.fresh
  · rw [if_pos hk₁] at h₁
    cases h₁
    have hk₂ : k₂ ≠ routes.fresh := fun hk₂ => hne (hk₁.trans hk₂.symm)
    rw [if_neg hk₂] at h₂
    exact not_clashes_of_admits hfits h₂ hk₂
  · rw [if_neg hk₁] at h₁
    by_cases hk₂ : k₂ = routes.fresh
    · rw [if_pos hk₂] at h₂
      cases h₂
      rw [clashes_comm]
      exact not_clashes_of_admits hfits h₁ hk₁
    · rw [if_neg hk₂] at h₂
      exact hvalid k₁ r₁ k₂ r₂ h₁ h₂ hne

lemma get_modify_cases {routes : Table MonitoringRoute} {x : MonitoringRoute}
    (hrow : routes.get id = some r) (h : (routes.modify id fun _ => r').get k = some x) :
    k = id ∧ x = r' ∨ k ≠ id ∧ routes.get k = some x := by
  rw [Table.get_modify] at h
  by_cases hk : k = id
  · rw [if_pos hk, hrow] at h
    cases h
    exact .inl ⟨hk, rfl⟩
  · rw [if_neg hk] at h
    exact .inr ⟨hk, h⟩

lemma activeRouteCount_modify_le {routes : Table MonitoringRoute} (hrow : routes.get id = some r)
    (hsame : SameOccupancy r r') (hoccupies : r'.occupies = true → r.occupies = true)
    (hostKey : String) :
    activeRouteCount (routes.modify id fun _ => r') hostKey ≤ activeRouteCount routes hostKey := by
  refine Table.length_filter_le fun k x hx hp => ?_
  rcases get_modify_cases hrow hx with ⟨rfl, rfl⟩ | ⟨-, hget⟩
  · obtain ⟨hhost, hactive⟩ := Bool.and_eq_true_iff.mp hp
    refine ⟨r, hrow, Bool.and_eq_true_iff.mpr ⟨?_, hoccupies hactive⟩⟩
    rw [← hsame.host]
    exact hhost
  · exact ⟨x, hget, hp⟩

/-- A caller saves the route of its copy. -/
lemma Inv.save (h : Inv s) (hrow : s.routes.get id = some r) (hsame : SameOccupancy r r')
    (hoccupies : r'.occupies = true → r.occupies = true) (hfits : admits s.routes id r' = true) :
    Inv { s with routes := s.routes.modify id fun _ => r' } := by
  refine { h with
    gateway := fun k x hx => ?_
    copies := fun c k copy hc => ?_
    valid := fun k x k' x' => valid_modify h.valid hfits
    room := fun p req attempt stage m hp hm => ?_ }
  · rcases get_modify_cases hrow hx with ⟨rfl, rfl⟩ | ⟨-, hget⟩
    · have hold := h.gateway k r hrow
      rwa [gatewayHost, ← hsame.gateway, ← hsame.host] at hold
    · exact h.gateway k x hget
  · obtain ⟨x, hx, hgeneration⟩ := h.copies c k copy hc
    by_cases hk : k = id
    · subst hk
      rw [hrow] at hx
      cases hx
      refine ⟨r', ?_, hsame.generation.trans hgeneration⟩
      rw [Table.get_modify_self, hrow]
      rfl
    · exact ⟨x, by rw [Table.get_modify_of_ne _ _ hk]; exact hx, hgeneration⟩
  · exact (activeRouteCount_modify_le hrow hsame hoccupies _).trans_lt
      (h.room p req attempt stage m hp hm)

lemma Inv.place (h : Inv s) {place : Reservation} {locks : Locks ℕ}
    (hrequest : ∀ req attempt stage, place = .working req attempt stage →
      ∃ g, s.gateways.get req.gatewayId = some g ∧ g.hostKey = req.gateway.hostKey)
    (hroom : ∀ req attempt stage m, place = .working req attempt stage → stage.ceiling = some m →
      activeRouteCount s.routes req.gateway.hostKey < m)
    (hlocks : Locks.Held (fun q => holdsAt (Function.update s.reservations p place q)) locks) :
    Inv { s.withReservation p place with locks := locks } := by
  refine { h with
    request := fun q req attempt stage hq => ?_
    locks := hlocks
    room := fun q req attempt stage m hq hm => ?_ }
  · dsimp only [State.withReservation] at hq
    by_cases hqp : q = p
    · rw [hqp, Function.update_self] at hq
      exact hrequest req attempt stage hq
    · rw [Function.update_of_ne hqp] at hq
      exact h.request q req attempt stage hq
  · dsimp only [State.withReservation] at hq
    by_cases hqp : q = p
    · rw [hqp, Function.update_self] at hq
      exact hroom req attempt stage m hq hm
    · rw [Function.update_of_ne hqp] at hq
      exact h.room q req attempt stage m hq hm

lemma Inv.done (h : Inv s) (p : ℕ) (result : Except String RouteResult) :
    Inv (s.endAttempt p (.done result)) := by
  refine h.place (fun _ _ _ hn => nomatch hn) (fun _ _ _ _ hn => nomatch hn) ?_
  exact h.locks.moved_release holdsAt fun _ hn => hn

lemma Inv.refuse (h : Inv s) (hfree : ∀ row, ¬ holdsAt (s.reservations p) row)
    (result : Except String RouteResult) : Inv (s.withReservation p (.done result)) := by
  refine h.place (fun _ _ _ hn => nomatch hn) (fun _ _ _ _ hn => nomatch hn) ?_
  exact h.locks.moved holdsAt fun row => iff_of_false (fun hn => hn) (hfree row)

lemma Inv.advance (h : Inv s) {req : Request} {attempt : ℕ} {stage stage' : Stage}
    (hp : s.reservations p = .working req attempt stage) (hheld : stage ≠ .waiting)
    (hheld' : stage' ≠ .waiting) (hroom : ∀ m, stage'.ceiling = some m →
      activeRouteCount s.routes req.gateway.hostKey < m) :
    Inv (s.withReservation p (.working req attempt stage')) := by
  refine h.place ?_ ?_ ?_
  · intro req' attempt' stage'' heq
    cases heq
    exact h.request p req attempt stage hp
  · intro req' attempt' stage'' m heq hm
    cases heq
    exact hroom m hm
  · refine h.locks.moved holdsAt fun row => ?_
    rw [hp]
    exact and_congr_left fun _ => iff_of_true hheld' hheld

lemma Inv.host_exclusive (h : Inv s) {q : ℕ} {req req' : Request} {attempt attempt' : ℕ}
    {stage stage' : Stage} (hp : s.reservations p = .working req attempt stage)
    (hq : s.reservations q = .working req' attempt' stage') (hheld : stage ≠ .waiting)
    (hheld' : stage' ≠ .waiting) (hhost : req.gateway.hostKey = req'.gateway.hostKey) : p = q := by
  obtain ⟨g, hg, hghost⟩ := h.request p req attempt stage hp
  obtain ⟨g', hg', hghost'⟩ := h.request q req' attempt' stage' hq
  have hgateway : req.gatewayId = req'.gatewayId :=
    h.hosts _ g _ g' hg hg' (by rw [hghost, hghost', hhost])
  refine h.locks.unique (r := req.gatewayId) ?_ ?_
  · rw [hp]
    exact ⟨hheld, rfl⟩
  · rw [hq]
    exact ⟨hheld', hgateway⟩

lemma Stage.ne_waiting_of_ceiling {stage : Stage} {m : ℕ} (h : stage.ceiling = some m) :
    stage ≠ .waiting := by
  rintro rfl
  cases h

/-- A reservation creates its row and ends. -/
lemma Inv.create (h : Inv s) {p : ℕ} {req : Request} {attempt : ℕ} {ceiling : Option ℕ}
    {port generation : ℕ}
    (hp : s.reservations p = .working req attempt (.numbered ceiling port generation))
    (hfits : admits s.routes s.routes.fresh (req.row port generation) = true)
    (result : Except String RouteResult) :
    Inv { s.endAttempt p (.done result) with
      routes := s.routes.insert s.routes.fresh (req.row port generation) } := by
  obtain ⟨g, hg, hghost⟩ := h.request p req attempt _ hp
  have hended := h.done p result
  have hfresh := Table.fresh_not_mem s.routes
  refine { hended with
    gateway := fun k x hx => ?_
    copies := fun c k copy hc => ?_
    valid := fun k x k' x' => valid_insert h.valid hfits
    room := fun q req' attempt' stage m hq hm => ?_ }
  · dsimp only at hx
    rw [Table.get_insert _ hfresh] at hx
    split_ifs at hx
    · cases hx
      refine ⟨?_, g, hg⟩
      dsimp only [gatewayHost, Request.row, State.endAttempt, State.withReservation]
      rw [hg]
      exact hghost
    · exact h.gateway k x hx
  · obtain ⟨x, hx, hgeneration⟩ := h.copies c k copy hc
    exact ⟨x, Table.get_insert_of_get hfresh hx, hgeneration⟩
  · have hqp : q ≠ p := by
      rintro rfl
      dsimp only [State.endAttempt, State.withReservation] at hq
      rw [Function.update_self] at hq
      cases hq
    dsimp only [State.endAttempt, State.withReservation] at hq
    rw [Function.update_of_ne hqp] at hq
    have hother : req.gateway.hostKey ≠ req'.gateway.hostKey := by
      intro hhost
      refine hqp (h.host_exclusive hp hq ?_ (Stage.ne_waiting_of_ceiling hm) hhost).symm
      exact fun hn => nomatch hn
    have hcount : activeRouteCount (s.routes.insert s.routes.fresh (req.row port generation))
        req'.gateway.hostKey = activeRouteCount s.routes req'.gateway.hostKey := by
      rw [activeRouteCount, activeRoutes, Table.filter_insert _ hfresh, if_neg]
      · rw [List.append_nil]
        rfl
      · simp [Request.row, hother]
    rw [hcount]
    exact h.room q req' attempt' stage m hq hm

lemma inv_operateBy (h : Inv s) {fn : MonitoringRoute → ℕ → MonitoringRoute → Outcome}
    (hop : operation a = some (c, fn)) : Inv (s.operateBy c fn) := by
  have hstate : s.operateBy c fn = { s with routes := (s.operateBy c fn).routes } := by
    rw [State.operateBy]
    split <;> rfl
  rw [hstate]
  have hwrite := write_operateBy (s := s) hop
  generalize (s.operateBy c fn).routes = routes at hwrite
  cases hwrite with
  | same => exact h
  | saved c' fn' id copy r r' hop' hcaller hrow hwrite hfits =>
    obtain ⟨hsame, hmoves⟩ := operation_saved hop' (h.no_drift hcaller hrow) hwrite
    exact h.save hrow hsame hmoves.occupies hfits
  | created p req attempt ceiling port generation haction =>
    rw [haction] at hop
    cases hop

lemma Inv.gateways (h : Inv s) {gateways : Table PhysicalHostGateway}
    (hhosts : ∀ k g k' g', gateways.get k = some g → gateways.get k' = some g' →
      g.hostKey = g'.hostKey → k = k')
    (hkept : ∀ k g, s.gateways.get k = some g →
      ∃ g', gateways.get k = some g' ∧ g'.hostKey = g.hostKey) :
    Inv { s with gateways := gateways } := by
  refine { h with
    hosts := hhosts
    gateway := fun k r hr => ?_
    request := fun p req attempt stage hp => ?_ }
  · obtain ⟨hhost, g, hg⟩ := h.gateway k r hr
    obtain ⟨g', hg', hsame⟩ := hkept _ g hg
    rw [gatewayHost, hg] at hhost
    refine ⟨?_, g', hg'⟩
    dsimp only [gatewayHost]
    rw [hg', ← hhost]
    exact hsame
  · obtain ⟨g, hg, hhost⟩ := h.request p req attempt stage hp
    obtain ⟨g', hg', hsame⟩ := hkept _ g hg
    exact ⟨g', hg', hsame.trans hhost⟩

lemma inv_ensureGateway (h : Inv s) (hostKey : String) :
    Inv (otherStep s (.ensureGateway hostKey)) := by
  dsimp only [otherStep]
  split_ifs with hused
  · exact h
  · have hunused : ∀ k g, s.gateways.get k = some g → g.hostKey ≠ hostKey := by
      intro k g hg heq
      exact hused (List.any_eq_true.mpr ⟨(k, g), Table.mem_rows_of_get hg, decide_eq_true heq⟩)
    have hfresh := Table.fresh_not_mem s.gateways
    refine h.gateways ?_ fun k g hg => ⟨g, Table.get_insert_of_get hfresh hg, rfl⟩
    intro k g k' g' hg hg' hhost
    rw [Table.get_insert _ hfresh] at hg hg'
    split_ifs at hg hg' with hk hk'
    · rw [hk, hk']
    · cases hg
      exact absurd hhost.symm (hunused k' g' hg')
    · cases hg'
      exact absurd hhost (hunused k g hg)
    · exact h.hosts k g k' g' hg hg' hhost

lemma inv_editGateway (h : Inv s) (k maxRoutes : ℕ) (routable : Bool) :
    Inv (otherStep s (.editGateway k maxRoutes routable)) := by
  have hback : ∀ j g', (s.gateways.modify k fun g =>
      { g with maxRoutes := maxRoutes, routable := routable }).get j = some g' →
      ∃ g, s.gateways.get j = some g ∧ g'.hostKey = g.hostKey := by
    intro j g' hg'
    rw [Table.get_modify] at hg'
    split_ifs at hg' with hj
    · obtain ⟨g, hg, rfl⟩ := Option.map_eq_some_iff.mp hg'
      exact ⟨g, hj ▸ hg, rfl⟩
    · exact ⟨g', hg', rfl⟩
  refine h.gateways ?_ fun j g hg => ?_
  · intro j g j' g' hg hg' hhost
    obtain ⟨x, hx, hxhost⟩ := hback j g hg
    obtain ⟨x', hx', hxhost'⟩ := hback j' g' hg'
    exact h.hosts j x j' x' hx hx' (by rw [← hxhost, hhost, hxhost'])
  · rw [Table.get_modify]
    split_ifs with hj
    · rw [← hj, hg]
      exact ⟨_, rfl, rfl⟩
    · exact ⟨g, hg, rfl⟩

lemma inv_load (h : Inv s) (c k : ℕ) : Inv (otherStep s (.load c k)) := by
  refine { h with copies := fun c' id copy hc => ?_ }
  dsimp only [otherStep] at hc
  by_cases hcc : c' = c
  · rw [hcc, Function.update_self] at hc
    obtain ⟨r, hr, heq⟩ := Option.map_eq_some_iff.mp hc
    cases heq
    exact ⟨copy, hr, rfl⟩
  · rw [Function.update_of_ne hcc] at hc
    exact h.copies c' id copy hc

lemma inv_beginReserve (h : Inv s) (p : ℕ) (enabled : Bool) (account gatewayId : ℕ)
    (endpoint : Option ℕ) :
    Inv (otherStep s (.beginReserve p enabled account gatewayId endpoint)) := by
  dsimp only [otherStep]
  cases hplace : s.reservations p with
  | working => exact h
  | idle | done =>
    have hfree : ∀ row, ¬ holdsAt (s.reservations p) row := by
      rw [hplace]
      exact fun row hn => hn
    dsimp only
    split_ifs
    · cases hgateway : s.gateways.get gatewayId with
      | none => exact h.refuse hfree _
      | some gateway =>
        refine h.place ?_ ?_ ?_
        · intro req attempt stage heq
          cases heq
          exact ⟨gateway, hgateway, rfl⟩
        · intro req attempt stage m heq hm
          cases heq
          cases hm
        · refine h.locks.moved holdsAt fun row => iff_of_false ?_ (hfree row)
          exact fun hn => hn.1 rfl
    · exact h.refuse hfree _

lemma inv_lockGateway (h : Inv s) (p : ℕ) : Inv (otherStep s (.lockGateway p)) := by
  dsimp only [otherStep]
  split
  · rename_i req attempt hplace
    split_ifs with hfree
    · refine h.place ?_ ?_ ?_
      · intro req' attempt' stage heq
        cases heq
        exact h.request p req attempt _ hplace
      · intro req' attempt' stage m heq hm
        cases heq
        cases hm
      · refine h.locks.moved_take holdsAt hfree fun row => ?_
        rw [hplace]
        constructor
        · exact fun hn => .inr hn.2
        · rintro (hn | hn)
          · exact absurd rfl hn.1
          · exact ⟨(fun hstage => nomatch hstage), hn⟩
    · exact h
  · exact h

lemma inv_checkExisting (h : Inv s) (p : ℕ) : Inv (otherStep s (.checkExisting p)) := by
  dsimp only [otherStep]
  split
  · rename_i req attempt hplace
    cases existingRoute s.routes req.account with
    | some e => exact h.done p _
    | none =>
      exact h.advance hplace (fun hn => nomatch hn) (fun hn => nomatch hn)
        fun m hm => nomatch hm
  · exact h

lemma inv_checkCapacity (h : Inv s) (p : ℕ) (maxTotalOccupants : Option ℕ) :
    Inv (otherStep s (.checkCapacity p maxTotalOccupants)) := by
  dsimp only [otherStep]
  split
  · rename_i req attempt hplace
    split_ifs with hfull
    · exact h.done p _
    · refine h.advance hplace (fun hn => nomatch hn) (fun hn => nomatch hn) fun m hm => ?_
      dsimp only [Stage.ceiling] at hm
      rw [hm] at hfull
      simpa using hfull
  · exact h

lemma inv_scanPort (h : Inv s) (p : ℕ) : Inv (otherStep s (.scanPort p)) := by
  dsimp only [otherStep]
  split
  · rename_i req attempt ceiling hplace
    cases freeLocalPort s.routes req.gateway.hostKey with
    | none => exact h.done p _
    | some port =>
      exact h.advance hplace (fun hn => nomatch hn) (fun hn => nomatch hn)
        fun m hm => h.room p req attempt _ m hplace hm
  · exact h

lemma inv_numberGeneration (h : Inv s) (p : ℕ) : Inv (otherStep s (.numberGeneration p)) := by
  dsimp only [otherStep]
  split
  · rename_i req attempt ceiling port hplace
    exact h.advance hplace (fun hn => nomatch hn) (fun hn => nomatch hn)
      fun m hm => h.room p req attempt _ m hplace hm
  · exact h

lemma inv_createRoute (h : Inv s) (p : ℕ) : Inv (otherStep s (.createRoute p)) := by
  dsimp only [otherStep]
  split
  · rename_i req attempt ceiling port generation hplace
    split_ifs with hfits hattempt
    · exact h.create hplace hfits _
    · refine h.place ?_ ?_ ?_
      · intro req' attempt' stage heq
        cases heq
        exact h.request p req attempt _ hplace
      · intro req' attempt' stage m heq hm
        cases heq
        cases hm
      · exact h.locks.moved_release holdsAt fun row hn => hn.1 rfl
    · exact h.done p _
  · exact h

lemma inv_step (h : Inv s) (a : Action) : Inv (step s a) := by
  rw [step]
  cases hop : operation a with
  | some e =>
    obtain ⟨c, fn⟩ := e
    exact inv_operateBy h hop
  | none =>
    cases a with
    | ensureGateway hostKey => exact inv_ensureGateway h hostKey
    | editGateway k maxRoutes routable => exact inv_editGateway h k maxRoutes routable
    | load c k => exact inv_load h c k
    | beginReserve p enabled account gatewayId endpoint =>
      exact inv_beginReserve h p enabled account gatewayId endpoint
    | lockGateway p => exact inv_lockGateway h p
    | checkExisting p => exact inv_checkExisting h p
    | checkCapacity p occupants => exact inv_checkCapacity h p occupants
    | scanPort p => exact inv_scanPort h p
    | numberGeneration p => exact inv_numberGeneration h p
    | createRoute p => exact inv_createRoute h p
    | _ => cases hop

lemma inv_run (as : List Action) : Inv (run step .initial as) :=
  run_invariant (P := Inv) (fun _ a h => inv_step h a) inv_initial as

end Monitoring
end GuvFX
