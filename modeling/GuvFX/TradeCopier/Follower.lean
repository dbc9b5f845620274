/-
# Followers

A follower copies one master onto an account of its own.  Before anything is traded for it, its
binding to the master is checked, the symbol of the master is translated to the one of its broker,
and the volume is sized: by the mode of the follower, under the caps of the follower and of the
broker, rounded down to the lot step, and refused below the minimum of the broker.
-/
import Mathlib.Algebra.Order.Round
import Mathlib.Data.Rat.Floor
import Mathlib.Tactic.Linarith
import GuvFX.Lib.Text
import GuvFX.TradeCopier.Account

namespace GuvFX
namespace Follower

/-! ### Sizing -/

/-- The sizing modes; the column may hold other text. -/
inductive SizingMode where
  | fixedLot
  | multiplier
  | balanceProportional
  | riskBased
  | unknown
  deriving DecidableEq, Repr

/-- The lot rules of the destination broker; the defaults are not authoritative. -/
structure BrokerConstraints where
  minVolume : ℚ := 1 / 100
  lotStep : ℚ := 1 / 100
  maxVolume : Option ℚ := none
  authoritative : Bool := false
  deriving DecidableEq, Repr

structure FollowerSizing where
  mode : SizingMode
  fixedLot : Option ℚ := none
  multiplier : Option ℚ := some 1
  riskPerTradePct : Option ℚ := none
  maxVolume : Option ℚ := none
  deriving DecidableEq, Repr

/-- The further facts that some modes need. -/
structure SizingFacts where
  masterBalance : Option ℚ := none
  followerBalance : Option ℚ := none
  slDistance : Option ℚ := none
  pipValuePerLot : Option ℚ := none
  deriving DecidableEq, Repr

/-- A sized volume, or the reason of its rejection. -/
structure SizingResult where
  ok : Bool
  volume : Option ℚ
  detail : String
  deriving DecidableEq, Repr

/-- A rejection. -/
def SizingResult.rejected (detail : String) : SizingResult := ⟨false, none, detail⟩

def positive (v : Option ℚ) : Option ℚ := v.filter fun x => 0 < x

/-- The target before caps and rounding. -/
def rawVolume (masterVolume : ℚ) (cfg : FollowerSizing) (facts : SizingFacts) : Except String ℚ :=
  match cfg.mode with
  | .fixedLot =>
    match positive cfg.fixedLot with
    | none => .error "fixed_lot_not_set"
    | some lot => .ok lot
  | .multiplier =>
    match positive cfg.multiplier with
    | none => .error "multiplier_not_set"
    | some mult => .ok (masterVolume * mult)
  | .balanceProportional =>
    -- the balance of the follower only has to be there
    match positive facts.masterBalance, facts.followerBalance with
    | some mb, some fb => .ok (masterVolume * (fb / mb))
    | _, _ => .error "requires_balances"
  | .riskBased =>
    match positive cfg.riskPerTradePct, positive facts.followerBalance with
    | some risk, some fb =>
      match positive facts.slDistance, positive facts.pipValuePerLot with
      | some sld, some pvl => .ok (fb * (risk / 100) / (sld * pvl))
      | _, _ => .error "requires_valid_sl"
    | _, _ => .error "requires_risk_and_balance"
  | .unknown => .error "unknown_sizing_mode"

/-- The integer part, towards zero. -/
def truncate (x : ℚ) : ℤ := if 0 ≤ x then ⌊x⌋ else ⌈x⌉

/-- Round down to the lot step. -/
def floorToStep (volume step : ℚ) : ℚ :=
  if step ≤ 0 then volume else truncate (volume / step) * step

/-- A bound of the broker; the bound zero counts as absent. -/
def boundOr (v default : ℚ) : ℚ := if v = 0 then default else v

def caps (cfg : FollowerSizing) (constraints : BrokerConstraints) : List ℚ :=
  [positive constraints.maxVolume, positive cfg.maxVolume].filterMap id

/-- Clamp the target down to the smallest cap, and say whether that changed it. -/
def clamp (raw : ℚ) : List ℚ → ℚ × Bool
  | [] => (raw, false)
  | c :: cs =>
    let cap := cs.foldl min c
    if cap < raw then (cap, true) else (raw, false)

def computeFollowerVolume (masterVolume : Option ℚ) (cfg : FollowerSizing)
    (constraints : BrokerConstraints) (facts : SizingFacts := {}) : SizingResult :=
  match positive masterVolume with
  | none => .rejected "invalid_master_volume"
  | some mv =>
    match rawVolume mv cfg facts with
    | .error detail => .rejected detail
    | .ok raw =>
      let clamped := clamp raw (caps cfg constraints)
      let vol := floorToStep clamped.1 (boundOr constraints.lotStep (1 / 100))
      if vol < boundOr constraints.minVolume (1 / 100) then .rejected "below_min_volume"
      else ⟨true, some vol, if clamped.2 then "clamped_to_max" else "ok"⟩

section Sizing

variable {masterVolume : Option ℚ} {cfg : FollowerSizing} {constraints : BrokerConstraints}
  {facts : SizingFacts}

lemma clamp_le {raw c : ℚ} {cs : List ℚ} (hc : c ∈ cs) : (clamp raw cs).1 ≤ c := by
  cases cs with
  | nil => cases hc
  | cons d ds =>
    have hcap : ds.foldl min d ≤ c := by
      have hle : ∀ (ds : List ℚ) (d : ℚ), ds.foldl min d ≤ d ∧ ∀ e ∈ ds, ds.foldl min d ≤ e := by
        intro ds
        induction ds with
        | nil => exact fun d => ⟨le_rfl, by simp⟩
        | cons e es ih =>
          intro d
          obtain ⟨hmin, hes⟩ := ih (min d e)
          refine ⟨hmin.trans (min_le_left d e), fun x hx => ?_⟩
          rcases List.mem_cons.mp hx with rfl | hx
          · exact hmin.trans (min_le_right d x)
          · exact hes x hx
      rcases List.mem_cons.mp hc with rfl | hc
      · exact (hle ds c).1
      · exact (hle ds d).2 c hc
    simp only [clamp]
    split_ifs with h
    · exact hcap
    · exact (not_lt.mp h).trans hcap

lemma floorToStep_le {volume c : ℚ} (hvol : volume ≤ c) (hc : 0 ≤ c) (step : ℚ) :
    floorToStep volume step ≤ c := by
  unfold floorToStep truncate
  split_ifs with hstep hnonneg
  · exact hvol
  · have hpos : 0 < step := not_le.mp hstep
    calc (⌊volume / step⌋ : ℚ) * step ≤ volume / step * step :=
          mul_le_mul_of_nonneg_right (Int.floor_le _) hpos.le
      _ = volume := div_mul_cancel₀ volume hpos.ne'
      _ ≤ c := hvol
  · have hpos : 0 < step := not_le.mp hstep
    have hceil : (⌈volume / step⌉ : ℚ) ≤ 0 := by
      exact_mod_cast Int.ceil_le.mpr (by simpa using (not_le.mp hnonneg).le)
    exact (mul_nonpos_of_nonpos_of_nonneg hceil hpos.le).trans hc

lemma pos_of_mem_caps {c : ℚ} (hc : c ∈ caps cfg constraints) : 0 < c := by
  simp only [caps, positive, List.mem_filterMap, List.mem_cons, List.not_mem_nil, or_false, id] at hc
  obtain ⟨v, rfl | rfl, hv⟩ := hc
  · simpa using (Option.filter_eq_some_iff.mp hv).2
  · simpa using (Option.filter_eq_some_iff.mp hv).2

/-- A sized volume is within every cap, and not below the minimum of the broker. -/
theorem volume_within_caps {v : ℚ}
    (hv : (computeFollowerVolume masterVolume cfg constraints facts).volume = some v) :
    (∀ c ∈ caps cfg constraints, v ≤ c) ∧ boundOr constraints.minVolume (1 / 100) ≤ v := by
  unfold computeFollowerVolume at hv
  split at hv
  · cases hv
  · split at hv
    · cases hv
    · rename_i raw hraw
      dsimp only at hv
      split at hv
      · cases hv
      · rename_i hmin
        obtain rfl := Option.some.inj hv
        refine ⟨fun c hc => ?_, not_lt.mp hmin⟩
        exact floorToStep_le (clamp_le hc) (pos_of_mem_caps hc).le _

end Sizing

/-! ### Symbols -/

/-- A verified equivalence of two symbols at two brokers. -/
structure SymbolMap where
  masterBroker : String
  masterSymbol : String
  followerBroker : String
  followerSymbol : String
  verified : Bool
  deriving DecidableEq, Repr

structure SymbolResolution where
  ok : Bool
  followerSymbol : String
  reason : String
  sameBroker : Bool
  deriving DecidableEq, Repr

/-- The broker of an account: the name of its server, else the free text. -/
def brokerKey (acct : TradingAccount) : String :=
  match acct.brokerServer with
  | none => acct.brokerName
  | some server => if server.serverName = "" then acct.brokerName else server.serverName

open Text in
def resolveFollowerSymbol (maps : List SymbolMap) (master : TradingAccount) (masterSymbol : String)
    (follower : TradingAccount) : SymbolResolution :=
  let mkey := brokerKey master
  let fkey := brokerKey follower
  if mkey = "" ∨ fkey = "" ∨ masterSymbol = "" then ⟨false, "", "broker_or_symbol_key_missing", false⟩
  else if casefold mkey = casefold fkey then ⟨true, masterSymbol, "same_broker_identity", true⟩
  else
    -- across brokers only a verified row counts, never the likeness of the names
    match maps.find? fun m =>
        casefold m.masterBroker = casefold mkey ∧ casefold m.masterSymbol = casefold masterSymbol ∧
          casefold m.followerBroker = casefold fkey ∧ m.verified with
    | none => ⟨false, "", "symbol_map_unverified", false⟩
    | some row => ⟨true, row.followerSymbol, "verified_map", false⟩

/-! ### Binding and constraints -/

open Text in
/-- The structural checks of a follower: another account than the master, the same owner, and a
broker identity. -/
def validateFollowerBinding (masterId followerId : ℕ) (macct facct : TradingAccount) :
    List (Bool × String) :=
  [(followerId ≠ masterId, "self_follow"),
   (facct.userId = macct.userId, "cross_user"),
   (strip facct.accountNumber ≠ "" ∧ (facct.brokerServer.isSome ∨ strip facct.brokerName ≠ ""),
    "invalid_broker_binding")]

/-- A symbol of an account, with what the broker has said of its lots. -/
structure BrokerInstrument where
  enabled : Bool
  volumeMin : Option ℚ
  volumeStep : Option ℚ
  volumeMax : Option ℚ
  deriving DecidableEq, Repr

/-- The lot rules of a symbol, authoritative when the broker itself has given the minimum and the
step. -/
def brokerConstraints (row : Option BrokerInstrument) : BrokerConstraints where
  minVolume := (row.bind (·.volumeMin)).getD (1 / 100)
  lotStep := (row.bind (·.volumeStep)).getD (1 / 100)
  maxVolume := row.bind (·.volumeMax)
  authoritative := row.any fun r => r.volumeMin.isSome && r.volumeStep.isSome

end Follower
end GuvFX
