/-
# The feature gates of the copier

Every gate is off by default and is read live, so that each reading may differ from the one
before.  `Flags` holds what one reading of the settings gives; the gates below combine these
readings as the copier does: each of them is conjoined with the master gate, so that no part of
the copier can be active while the master gate is off.
-/
import Mathlib.Tactic.Lemma

namespace GuvFX

structure Flags where
  /-- `COPIER_ENABLED` -/
  enabled : Bool
  /-- `COPIER_OBSERVER_ENABLED` -/
  observerEnabled : Bool
  /-- `COPIER_EVENT_PROJECTION_ENABLED` -/
  eventProjectionEnabled : Bool
  /-- `COPIER_EXECUTE_ENABLED` -/
  executeEnabled : Bool
  /-- `COPIER_EXECUTE_DEMO_ARMED` -/
  executeDemoArmed : Bool
  /-- `COPIER_LIVE_EXECUTE_ENABLED` -/
  liveExecuteEnabled : Bool
  deriving DecidableEq, Repr

namespace Flags

def allOn : Flags := ⟨true, true, true, true, true, true⟩

def copierEnabled (f : Flags) : Bool := f.enabled

/-- The gate of the read-only observation of the masters. -/
def copierObserverEnabled (f : Flags) : Bool := copierEnabled f && f.observerEnabled

def copierEventProjectionEnabled (f : Flags) : Bool :=
  copierEnabled f && f.eventProjectionEnabled

/-- The gate of the producer of execution jobs. -/
def copierExecuteEnabled (f : Flags) : Bool := copierEnabled f && f.executeEnabled

/-- The gate of real orders on demo followers. -/
def copierExecuteDemoArmed (f : Flags) : Bool := copierExecuteEnabled f && f.executeDemoArmed

/-- The gate of real orders on live followers. -/
def copierLiveExecuteEnabled (f : Flags) : Bool := copierExecuteEnabled f && f.liveExecuteEnabled

end Flags
end GuvFX
