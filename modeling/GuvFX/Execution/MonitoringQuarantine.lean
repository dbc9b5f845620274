/-
# Quarantined routes and ready routes

A quarantined route stays quarantined until it is tombstoned, and no reservation reports it as its
own, as long as nobody drains it.  A route becomes ready only from the verified state and with the
readiness that it needs, which a reconcile pass sets only when all gates are open; the readiness of
a ready route may fall later, and its state does not follow.
-/
import GuvFX.Execution.MonitoringSystem

namespace GuvFX
namespace Monitoring

open Runs

variable {s : State} {a : Action} {r r' : MonitoringRoute} {k : ℕ}

/-! ### The gates -/

/-- A reconcile pass finds a route ready only when all its gates are open. -/
theorem gates_of_monitoringReady {route : MonitoringRoute} {o : Observation}
    (h : (evaluateRouteReadiness route o).1 = .monitoringReady) :
    computeGates route o = ⟨true, true, true, true, true, true, true, true⟩ := by
  have hauth : (computeGates route o).authIdentityMatch = (computeGates route o).identityMatch := rfl
  rw [evaluateRouteReadiness] at h
  generalize computeGates route o = gates at *
  obtain ⟨g₁, g₂, g₃, g₄, g₅, g₆, g₇, g₈⟩ := gates
  dsimp only at h hauth
  split_ifs at h with _ _ hduplicate hworkspace hboundary hreachable hidentity hpositions hfresh
  simp only [Bool.not_eq_true', Bool.not_eq_false] at hduplicate hworkspace hboundary
  simp only [Bool.not_eq_true', Bool.not_eq_false] at hreachable hidentity
  rw [hidentity] at hauth
  rw [hworkspace, hidentity, hboundary, hreachable, hauth, hpositions.2, hfresh, hduplicate]

lemma gates_of_promoted {host : String} {copy : MonitoringRoute} {o : Observation}
    (hsaved : (runLocked host copy r (reconcileRoute copy o k)).1 = some r')
    (hdrift : checkDrift host r copy = none) (hbefore : r.state ≠ .ready)
    (hafter : r'.state = .ready) :
    computeGates copy o = ⟨true, true, true, true, true, true, true, true⟩ := by
  rw [runLocked, hdrift] at hsaved
  cases hsaved
  dsimp only at hafter
  split_ifs at hafter with hready
  · exact gates_of_monitoringReady hready.2.2
  · exact absurd hafter hbefore

/-! ### Routes out of service -/

/-- The states of a route that has been taken out of service. -/
def Sealed (r : MonitoringRoute) : Prop := r.state = .quarantined ∨ r.state = .tombstoned

/-- Nobody drains the route `k` while it is quarantined. -/
def SparesQuarantine (k : ℕ) (s : State) : Action → Prop
  | .drainRoute c => ∀ e ∈ s.callers c, e.1 = k → ∀ r ∈ s.routes.get k, r.state ≠ .quarantined
  | _ => True

lemma Moves.sealed (h : Moves a r r') (hr : Sealed r)
    (hdrain : ∀ c, a = .drainRoute c → r.state ≠ .quarantined) : Sealed r' := by
  have hnot : ¬ (r.state = .registered ∨ r.state = .verified ∨ r.state = .ready) := by
    rcases hr with hr | hr <;> simp [hr]
  cases h with
  | registered _ _ _ _ before =>
    rcases hr with hr | hr <;> rw [hr] at before <;> cases before
  | verified before => exact absurd before hnot
  | promoted before => exact absurd (.inr (.inl before)) hnot
  | kept state => rwa [Sealed, state]
  | drained c action before =>
    rcases hr with hr | hr
    · exact absurd hr (hdrain c action)
    · exact absurd hr before
  | tombstoned _ _ _ after => exact .inr after
  | quarantined before => exact absurd before hnot

lemma sealed_step (hinv : Inv s) (hrow : s.routes.get k = some r) (hr : Sealed r)
    (hspares : SparesQuarantine k s a) :
    ∃ r', (step s a).routes.get k = some r' ∧ Sealed r' := by
  have hwrite := step_write s a
  generalize (step s a).routes = routes at hwrite
  cases hwrite with
  | same => exact ⟨r, hrow, hr⟩
  | saved c fn id copy x x' hop hcaller hx hrun hfits =>
    by_cases hk : k = id
    · subst hk
      rw [hrow] at hx
      cases hx
      obtain ⟨-, hmoves⟩ := operation_saved hop (hinv.no_drift hcaller hrow) hrun
      refine ⟨x', ?_, hmoves.sealed hr fun c' hdrain => ?_⟩
      · rw [Table.get_modify_self, hrow]
        rfl
      · subst hdrain
        cases hop
        exact hspares (k, copy) hcaller rfl r hrow
    · exact ⟨r, by rw [Table.get_modify_of_ne _ _ hk]; exact hrow, hr⟩
  | created p req attempt ceiling port generation haction hplace hfits =>
    exact ⟨r, Table.get_insert_of_get (Table.fresh_not_mem _) hrow, hr⟩

lemma sealed_run (hinv : Inv s) (hrow : s.routes.get k = some r) (hr : Sealed r) {as : List Action}
    (has : StepsMeet step (SparesQuarantine k) s as) :
    ∃ r', (run step s as).routes.get k = some r' ∧ Sealed r' := by
  have hboth : Inv (run step s as) ∧ ∃ r', (run step s as).routes.get k = some r' ∧ Sealed r' := by
    refine run_invariant_of_meets
      (P := fun s => Inv s ∧ ∃ r', s.routes.get k = some r' ∧ Sealed r') ?_ ⟨hinv, r, hrow, hr⟩ has
    rintro s a ⟨hs, r', hr', hsealed⟩ ha
    exact ⟨inv_step hs a, sealed_step hs hr' hsealed ha⟩
  exact hboth.2

/-! ### Reservations -/

/-- The route that a step reports to the caller of a reservation as its own. -/
def reported (s : State) (a : Action) (p : ℕ) : Option ℕ :=
  match s.reservations p, (step s a).reservations p with
  | .working .., .done (.ok result) => result.routeId
  | _, _ => none

lemma reported_of_same (h : (step s a).reservations p = s.reservations p) :
    reported s a p = none := by
  rw [reported, h]
  cases s.reservations p <;> rfl

lemma reported_of_update {q : ℕ} {place : Reservation}
    (h : (step s a).reservations = Function.update s.reservations q place)
    (hplace : ∀ result, place = .done (.ok result) → result.routeId ≠ some k) :
    reported s a p ≠ some k := by
  by_cases hpq : p = q
  · rw [reported, h, hpq, Function.update_self]
    split
    · exact hplace _ rfl
    · exact fun hn => nomatch hn
  · rw [reported_of_same]
    · exact fun hn => nomatch hn
    · rw [h, Function.update_of_ne hpq]

/-- A reservation reports a route that is in use and not quarantined, or a new one. -/
lemma not_reported (hrow : s.routes.get k = some r) (hr : Sealed r) (a : Action) (p : ℕ) :
    reported s a p ≠ some k := by
  have hsame : (step s a).reservations = s.reservations → reported s a p ≠ some k := by
    intro h
    rw [reported_of_same (congrFun h p)]
    exact fun hn => nomatch hn
  cases hop : operation a with
  | some e =>
    refine hsame ?_
    rw [step, hop]
    dsimp only [State.operateBy]
    split <;> rfl
  | none =>
    have hstep : step s a = otherStep s a := by rw [step, hop]
    cases a with
    | ensureGateway hostKey =>
      refine hsame ?_
      rw [hstep, otherStep]
      split_ifs <;> rfl
    | editGateway | load => exact hsame rfl
    | checkExisting q =>
      dsimp only [otherStep] at hstep
      split at hstep
      · rename_i req attempt hplace
        cases hexisting : existingRoute s.routes req.account with
        | none =>
          rw [hexisting] at hstep
          refine reported_of_update (congrArg State.reservations hstep) fun result hn => ?_
          cases hn
        | some e =>
          obtain ⟨k', x⟩ := e
          rw [hexisting] at hstep
          refine reported_of_update (congrArg State.reservations hstep) fun result hn => ?_
          have hget := Table.get_of_first hexisting
          have hoccupies := (Bool.and_eq_true_iff.mp (Table.of_first hexisting)).2
          by_cases hquarantined : x.state = .quarantined
          · rw [if_pos hquarantined] at hn
            cases hn
          · rw [if_neg hquarantined] at hn
            cases hn
            rintro heq
            cases (Option.some.inj heq : k' = k)
            cases Option.some.inj (hget.symm.trans hrow)
            rcases hr with hr | hr
            · exact hquarantined hr
            · exact of_decide_eq_true hoccupies hr
      · exact hsame (congrArg State.reservations hstep)
    | createRoute q =>
      dsimp only [otherStep] at hstep
      split at hstep
      · split_ifs at hstep
        · refine reported_of_update (congrArg State.reservations hstep) fun result hn => ?_
          cases hn
          rintro ⟨⟩
          exact Table.fresh_not_mem s.routes (Table.mem_keys_of_get hrow)
        · refine reported_of_update (congrArg State.reservations hstep) fun result hn => ?_
          cases hn
        · refine reported_of_update (congrArg State.reservations hstep) fun result hn => ?_
          cases hn
      · exact hsame (congrArg State.reservations hstep)
    | beginReserve q | lockGateway q | checkCapacity q | scanPort q | numberGeneration q =>
      dsimp only [otherStep] at hstep
      repeat' split at hstep
      all_goals first
        | exact hsame (congrArg State.reservations hstep)
        | refine reported_of_update (congrArg State.reservations hstep) fun result hn => ?_
          cases hn
    | _ => cases hop

/-! ### Promotions -/

lemma ready_step (hinv : Inv s) (hafter : (step s a).routes.get k = some r')
    (hready : r'.state = .ready) :
    s.routes.get k = some r' ∨ ∃ r, s.routes.get k = some r ∧ (r.state = .ready ∨
      (r.state = .verified ∧ r'.readiness = .monitoringReady ∧
        ∀ c o copy, a = .reconcileRoute c o → s.callers c = some (k, copy) →
          computeGates copy o = ⟨true, true, true, true, true, true, true, true⟩)) := by
  have hwrite := step_write s a
  generalize (step s a).routes = routes at hwrite hafter
  cases hwrite with
  | same => exact .inl hafter
  | saved c fn id copy x x' hop hcaller hx hrun hfits =>
    rcases get_modify_cases hx hafter with ⟨rfl, rfl⟩ | ⟨-, hget⟩
    · refine .inr ⟨x, hx, ?_⟩
      have hdrift := hinv.no_drift hcaller hx
      by_cases hbefore : x.state = .ready
      · exact .inl hbefore
      · refine .inr ?_
        obtain ⟨-, hmoves⟩ := operation_saved hop hdrift hrun
        have hpromoted : x.state = .verified ∧ r'.readiness = .monitoringReady := by
          cases hmoves with
          | promoted before _ readiness => exact ⟨before, readiness⟩
          | kept state => exact absurd (state.symm.trans hready) hbefore
          | registered _ _ _ _ _ after | verified _ after | drained _ _ _ after
            | tombstoned _ _ _ after | quarantined _ after =>
            rw [hready] at after
            cases after
        refine ⟨hpromoted.1, hpromoted.2, ?_⟩
        rintro c' o copy' rfl hcopy
        cases hop
        rw [hcaller] at hcopy
        cases hcopy
        exact gates_of_promoted hrun hdrift hbefore hready
    · exact .inl hget
  | created p req attempt ceiling port generation haction hplace hfits =>
    rw [Table.get_insert _ (Table.fresh_not_mem _)] at hafter
    split_ifs at hafter
    · cases hafter
      cases hready
    · exact .inl hafter

/-! ### The claim about quarantined and ready routes -/

/-- No quarantined route comes back, and no route is in service without its readiness. -/
structure NeverRepaired (as : List Action) : Prop where
  stays : ∀ pre post k r, as = pre ++ post → (run step .initial pre).routes.get k = some r →
    r.state = .quarantined → ∃ r', (run step .initial as).routes.get k = some r' ∧ Sealed r'
  unreported : ∀ pre post k r, as = pre ++ post → (run step .initial pre).routes.get k = some r →
    r.state = .quarantined → ∀ a p, reported (run step .initial as) a p ≠ some k
  ready : ∀ k r, (run step .initial as).routes.get k = some r → r.state = .ready →
    r.readiness = .monitoringReady

/-- What the code keeps.  A quarantined route that nobody drains comes back in no run and is
reported by no reservation.  Every ready route has been ready with its readiness before; only a
verified route becomes ready, with its readiness, and a reconcile pass makes it ready only when all
gates of its copy are open. -/
structure KeptByOperations (as : List Action) : Prop where
  stays : ∀ pre post k r, as = pre ++ post → (run step .initial pre).routes.get k = some r →
    r.state = .quarantined → StepsMeet step (SparesQuarantine k) (run step .initial pre) post →
    ∃ r', (run step .initial as).routes.get k = some r' ∧ Sealed r'
  unreported : ∀ pre post k r, as = pre ++ post → (run step .initial pre).routes.get k = some r →
    r.state = .quarantined → StepsMeet step (SparesQuarantine k) (run step .initial pre) post →
    ∀ a p, reported (run step .initial as) a p ≠ some k
  ready : ∀ k r, (run step .initial as).routes.get k = some r → r.state = .ready →
    Visited step .initial as fun s => ∃ r, s.routes.get k = some r ∧ r.state = .ready ∧
      r.readiness = .monitoringReady
  promoted : ∀ a k r r', (run step .initial as).routes.get k = some r → r.state ≠ .ready →
    (step (run step .initial as) a).routes.get k = some r' → r'.state = .ready →
    r.state = .verified ∧ r'.readiness = .monitoringReady ∧
      ∀ c o copy, a = .reconcileRoute c o → (run step .initial as).callers c = some (k, copy) →
        computeGates copy o = ⟨true, true, true, true, true, true, true, true⟩

lemma sealed_of_quarantined {as pre post : List Action} (has : as = pre ++ post)
    (hrow : (run step .initial pre).routes.get k = some r) (hr : r.state = .quarantined)
    (hspares : StepsMeet step (SparesQuarantine k) (run step .initial pre) post) :
    ∃ r', (run step .initial as).routes.get k = some r' ∧ Sealed r' := by
  rw [has, run_append]
  exact sealed_run (inv_run pre) hrow (.inl hr) hspares

lemma visited_of_ready (as : List Action) : ∀ k r, (run step .initial as).routes.get k = some r →
    r.state = .ready → Visited step .initial as fun s => ∃ r, s.routes.get k = some r ∧
      r.state = .ready ∧ r.readiness = .monitoringReady := by
  induction as using List.reverseRecOn with
  | nil => exact fun _ _ h => nomatch h
  | append_singleton as a ih =>
    intro k r' hr' hready
    have hafter := hr'
    rw [run_concat] at hafter
    rcases ready_step (inv_run as) hafter hready with hbefore | ⟨r, hr, hstate | ⟨-, hset, -⟩⟩
    · exact (ih k r' hbefore hready).append [a]
    · exact (ih k r hr hstate).append [a]
    · exact Visited.last ⟨r', hr', hready, hset⟩

/-- In every run the operations keep quarantined and ready routes so. -/
theorem keptByOperations (as : List Action) : KeptByOperations as where
  stays := fun _ _ _ _ has hrow hr hspares => sealed_of_quarantined has hrow hr hspares
  unreported := by
    intro pre post k r has hrow hr hspares a p
    obtain ⟨r', hr', hsealed⟩ := sealed_of_quarantined has hrow hr hspares
    exact not_reported hr' hsealed a p
  ready := visited_of_ready as
  promoted := by
    intro a k r r' hrow hbefore hafter hready
    rcases ready_step (inv_run as) hafter hready with hsame | ⟨x, hx, hstate | hpromoted⟩
    · cases Option.some.inj (hrow.symm.trans hsame)
      exact absurd hready hbefore
    · cases Option.some.inj (hrow.symm.trans hx)
      exact absurd hstate hbefore
    · cases Option.some.inj (hrow.symm.trans hx)
      exact hpromoted

/-! ### A quarantined route that is drained, and a ready route whose readiness falls -/

/-- The identity of the account of the route, and one of another account. -/
def ownIdentity : Identity := ⟨"50001234", "Broker-Live"⟩

def otherIdentity : Identity := ⟨"50009999", "Broker-Live"⟩

/-- A route is reserved, registered and verified, and a pass finds it ready; the next pass cannot
reach its bridge. -/
def loweredRun : List Action :=
  [.ensureGateway "host", .editGateway 1 4 true, .beginReserve 0 true 1 1 none, .lockGateway 0,
    .checkExisting 0, .checkCapacity 0 (some 4), .scanPort 0, .numberGeneration 0, .createRoute 0,
    .load 0 1, .registerRoute 0 none none, .verifyRoute 0 ownIdentity ownIdentity 0, .load 0 1,
    .reconcileRoute 0 ⟨⟨true, some true, some true, "monitoring_ok"⟩, 60, true, false, 1⟩,
    .reconcileRoute 0 ⟨⟨false, none, none, "endpoint_unreachable"⟩, 120, true, false, 1⟩]

/-- The route of the account is quarantined by a verification and drained by an operator. -/
def drainedRun : List Action :=
  [.ensureGateway "host", .editGateway 1 4 true, .beginReserve 0 true 1 1 none, .lockGateway 0,
    .checkExisting 0, .checkCapacity 0 (some 4), .scanPort 0, .numberGeneration 0, .createRoute 0,
    .load 0 1, .registerRoute 0 none none, .verifyRoute 0 ownIdentity otherIdentity 0,
    .drainRoute 0, .beginReserve 0 true 1 1 none, .lockGateway 0]

/-- Without the drain the route stays quarantined, and it is not reported. -/
theorem keptByOperations_undrainedRun :
    KeptByOperations (drainedRun.take 12 ++ drainedRun.drop 13) ∧
      ((run step .initial (drainedRun.take 12 ++ drainedRun.drop 13)).routes.get 1).map (·.state) =
        some .quarantined ∧
      reported (run step .initial (drainedRun.take 12 ++ drainedRun.drop 13)) (.checkExisting 0) 0 =
        none :=
  ⟨keptByOperations _, by decide +kernel, by decide +kernel⟩

/-- The ready route keeps its state when its readiness falls, and the drained route is reported to
the next reservation of its account. -/
theorem neverRepaired_broken : ¬ NeverRepaired loweredRun ∧ ¬ NeverRepaired drainedRun := by
  constructor
  · intro h
    have hready := h.ready 1
    revert hready
    decide +kernel
  · intro h
    have hrow : ((run step .initial (drainedRun.take 12)).routes.get 1).map (·.state) =
        some .quarantined := by decide +kernel
    obtain ⟨r, hr, hstate⟩ := Option.map_eq_some_iff.mp hrow
    exact h.unreported _ _ 1 r (List.take_append_drop 12 drainedRun).symm hr hstate
      (.checkExisting 0) 0 (by decide +kernel)

end Monitoring
end GuvFX
