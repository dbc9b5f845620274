/-
# The locks of the runtimes

An operation that changes a runtime holds one of a few permits and the lock of the runtime.  Neither
is waited for: an operation that does not get them is refused.  The permit is taken first; the look at
the shutdown flag, the lock of the runtime and the count of the operations under way are one section.
-/
import GuvFX.Lib.Locks

namespace GuvFX

structure RuntimeLocks where
  permits : ℕ
  perRuntime : Locks String
  /-- The operations that hold a lock. -/
  active : ℕ
  /-- No operation may begin any more. -/
  draining : Bool

namespace RuntimeLocks

/-- Why an operation does not get its locks. -/
inductive Busy
  | agentBusy | agentStopping | runtimeBusy
  deriving DecidableEq, Repr

def Busy.reasonCode : Busy → String
  | .agentBusy => "agent_busy"
  | .agentStopping => "agent_stopping"
  | .runtimeBusy => "runtime_busy"

def initial (maxGlobalMutations : ℕ) : RuntimeLocks := ⟨maxGlobalMutations, Locks.free, 0, false⟩

def beginDrain (locks : RuntimeLocks) : RuntimeLocks := { locks with draining := true }

def takePermit (locks : RuntimeLocks) : Except Busy RuntimeLocks :=
  if locks.permits = 0 then .error .agentBusy else .ok { locks with permits := locks.permits - 1 }

def lock (locks : RuntimeLocks) (runtime : String) (id : ℕ) : Except Busy RuntimeLocks :=
  if locks.draining then .error .agentStopping
  else if locks.perRuntime runtime ≠ none then .error .runtimeBusy
  else .ok { locks with
    perRuntime := locks.perRuntime.take runtime id
    active := locks.active + 1 }

def unlock (locks : RuntimeLocks) (id : ℕ) : RuntimeLocks :=
  { locks with perRuntime := locks.perRuntime.release id, active := locks.active - 1 }

def returnPermit (locks : RuntimeLocks) : RuntimeLocks := { locks with permits := locks.permits + 1 }

variable {locks locks' : RuntimeLocks} {runtime : String} {id : ℕ}

lemma perRuntime_of_takePermit (h : locks.takePermit = .ok locks') :
    locks'.perRuntime = locks.perRuntime := by
  unfold takePermit at h
  split at h
  · cases h
  · obtain rfl := Except.ok.inj h
    rfl

lemma perRuntime_of_lock (h : locks.lock runtime id = .ok locks') :
    locks.perRuntime runtime = none ∧ locks'.perRuntime = locks.perRuntime.take runtime id := by
  unfold lock at h
  split at h
  · cases h
  · split at h
    · cases h
    · rename_i hfree
      obtain rfl := Except.ok.inj h
      exact ⟨not_not.mp hfree, rfl⟩

end RuntimeLocks
end GuvFX
