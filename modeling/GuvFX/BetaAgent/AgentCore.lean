/-
# The agent behind the management channel

A request that the protocol has accepted is dispatched by its operation.  An operation of the lifecycle
is looked up under its job first: an answer that has been stored is given again, and another request
for the same job and operation is refused.  Otherwise the implementation runs, under the locks of the
runtime if it changes the runtime, and the answer is stored when it returns.  A refusal is not stored.

The look into the store, the locks, the run and the storing are steps of their own, and any number of
requests is under way at once.
-/
import GuvFX.BetaAgent.Protocol
import GuvFX.BetaAgent.RuntimeLocks

namespace GuvFX

def Protocol.Refusal.reasonCode : Protocol.Refusal → Option String
  | .malformedRequest => some "malformed_request"
  | .unsupportedProtocolVersion => some "unsupported_protocol_version"
  | .operationNotAllowed => some "operation_not_allowed"
  | .missingField => some "missing_field"
  | .missingSignature => some "missing_signature"
  | .unknownKeyId => some "unknown_key_id"
  | .malformedTime => some "malformed_time"
  | .timestampSkew => some "timestamp_skew"
  | .requestExpired => some "request_expired"
  | .expiryTooFar => some "expiry_too_far"
  | .badSignature => some "bad_signature"
  | .payloadMissing => some "payload_missing"
  | .payloadDigestMismatch => some "payload_digest_mismatch"
  | .nonceReplayed => some "nonce_replayed"
  | .payloadRequired => some "payload_required"
  | .exception => none

namespace AgentCore

open Protocol (Fields Crypto)

/-! ### What the agent is built with -/

/-- The library functions of the agent. -/
structure Host where
  crypto : Crypto
  /-- `int(..)`, where it does not raise. -/
  intOf : Json → Option ℤ
  /-- `str(..)` -/
  strOf : Json → String
  /-- `str(uuid.UUID(..))`, where it does not raise. -/
  uuidOf : String → Option String

/-- The operations with an approved implementation. -/
structure Config where
  protocol : Protocol.Config
  /-- The operations that have an implementation. -/
  opImpls : List String
  agentVersion : String
  manifestVersion : String
  /-- The digests of the manifest, by the names of the implementations. -/
  scriptManifest : String → Option String
  actualDigest : String → Option String
  scriptVersions : String → Option String
  hasLoginValidator : Bool
  agentSupervised : Option Bool
  maxGlobalMutations : ℕ := 2

/-- The operations that change a runtime. -/
def mutating : List String := ["MATERIALISE", "START", "STOP", "TOMBSTONE"]

def supportedOperations : List String :=
  Protocol.provisioningOperations ++ Protocol.credentialedOperations

def implName (op : String) : String := "op_" ++ String.ofList (op.toList.map Char.toLower)

/-- Does an implementation have the digest of the manifest? -/
def Config.implIntegrityOk (cfg : Config) (impl : String) : Bool :=
  match cfg.scriptManifest impl with
  | some approved => (cfg.actualDigest impl).getD approved = approved
  | none => false

/-! ### Responses -/

inductive Outcome
  | ok | denied | error
  deriving DecidableEq, Repr

/-- What the agent answers. -/
structure Response where
  operation : Option Json
  outcome : Outcome
  runtimeUuid : Option String
  provisioningJobId : Option Json
  agentVersion : String
  scriptVersion : Json
  reasonCode : String
  /-- The evidence of the implementation that may leave the agent. -/
  evidence : Fields

def evidenceNames : List String :=
  ["pid", "session_id", "duration_ms", "running", "logged_in", "verified_at", "is_demo",
    "protocol_version", "manifest_version", "supported_operations", "agent_supervised", "slot",
    "generation", "occupancy_id", "owner_marker_digest", "canonical_path_digest",
    "path_containment_verified", "executable_containment_verified", "released", "release_pending",
    "available"]

/-- A response about a request, of which nothing may be known. -/
def sanitise (host : Host) (cfg : Config) (request : Option Fields) (outcome : Outcome) (raw : Fields)
    (reasonCode : String) (scriptVersion : String) : Response where
  operation := request.bind (Protocol.get · "operation")
  outcome := outcome
  runtimeUuid := (request.bind (Protocol.get · "runtime_uuid")).map host.strOf
  provisioningJobId := request.bind (Protocol.get · "provisioning_job_id")
  agentVersion := cfg.agentVersion
  scriptVersion :=
    if scriptVersion = "" then (Protocol.get raw "script_version").getD (.str "")
    else .str scriptVersion
  reasonCode := reasonCode
  evidence := evidenceNames.filterMap fun name => (Protocol.get raw name).map fun v => (name, v)

def denied (host : Host) (cfg : Config) (request : Option Fields) (reasonCode : String) : Response :=
  sanitise host cfg request .denied [] reasonCode ""

def internalError (host : Host) (cfg : Config) (request : Option Fields) : Response :=
  sanitise host cfg request .error [] "agent_internal_error" ""

def handshake (host : Host) (cfg : Config) (request : Fields) : Response :=
  let supervised := match cfg.agentSupervised with
    | some b => [("agent_supervised", Json.bool b)]
    | none => []
  sanitise host cfg (some request) .ok
    ([("protocol_version", .int Protocol.protocolVersion), ("manifest_version", .str cfg.manifestVersion),
      ("supported_operations", .arr (supportedOperations.map .str))] ++ supervised) "" ""

/-! ### The store of the answers -/

/-- The job and the operation of a request. -/
abbrev Pair := ℤ × String

/-- The answer that has been stored for a job and an operation. -/
structure IdemRow where
  pair : Pair
  digest : String
  response : Response

abbrev Idem := Rows IdemRow IdemRow.pair

/-! ### The system -/

/-- A request for an operation of the lifecycle. -/
structure Work where
  request : Fields
  op : String
  job : ℤ

def Work.pair (w : Work) : Pair := (w.job, w.op)

def Work.digest (host : Host) (w : Work) : String := Protocol.semanticDigest host.crypto w.request

/-- How the part of a request that the locks protect ends. -/
inductive Result
  | returned (raw : Fields)
  | refused (reasonCode : String)
  | raised

inductive LoginResult
  | validated (ok : Bool) (reasonCode : Option String) (isDemo : Option Bool)
  | refused (reasonCode : String)
  | raised
  deriving DecidableEq

/-- Where a request is, once the protocol has let it through or refused it. -/
inductive Stage
  | login (request : Fields)
  /-- No answer is stored. -/
  | missed (w : Work)
  /-- The request has a permit, and goes for the lock of its runtime. -/
  | permitted (w : Work) (runtime : String)
  | resolving (w : Work) (runtime : String)
  /-- The implementation runs. -/
  | running (w : Work) (runtime : String)
  /-- The locked part is over, and the lock of the runtime is still held. -/
  | ran (w : Work) (runtime : String) (result : Result)
  /-- The permit is still held. -/
  | unlocked (w : Work) (result : Result)
  | left (w : Work) (result : Result)
  | answered (response : Response)

/-- What has happened to the requests. -/
inductive Event
  /-- The store had no answer for the request. -/
  | missed (id : ℕ) (w : Work)
  /-- The implementation has begun. -/
  | began (id : ℕ) (w : Work)
  | returned (id : ℕ) (w : Work) (response : Response)
  | answered (id : ℕ) (request : Option Fields) (response : Response)

/-- The agent. -/
structure State where
  channel : Protocol.State
  idem : Idem
  locks : RuntimeLocks
  stages : ℕ → Option Stage
  /-- What has happened, the last event first. -/
  log : List Event

/-- What can happen. -/
inductive Action
  | channel (a : Protocol.Action)
  /-- A request that the protocol has let through or refused is dispatched, up to the look into the
  store. -/
  | dispatch (id : ℕ)
  | validated (id : ℕ) (result : LoginResult)
  /-- The checks before the run, and the permit for an operation that changes the runtime. -/
  | prepare (id : ℕ)
  | lock (id : ℕ)
  /-- The path of the runtime has been resolved, or the resolution has failed. -/
  | resolved (id : ℕ) (failure : Option Result)
  /-- The implementation is done. -/
  | finish (id : ℕ) (result : Result)
  /-- The lock of the runtime is given up. -/
  | unlock (id : ℕ)
  /-- The permit is given back. -/
  | leave (id : ℕ)
  | answer (id : ℕ)
  /-- The agent is told to stop. -/
  | drain

/-- An agent that has just been installed. -/
def State.initial (cfg : Config) (clock : ℤ) : State where
  channel := .initial clock
  idem := .empty
  locks := .initial cfg.maxGlobalMutations
  stages := fun _ => none
  log := []

def State.withStage (s : State) (id : ℕ) (stage : Stage) : State :=
  { s with stages := Function.update s.stages id (some stage) }

def State.answer (s : State) (id : ℕ) (request : Option Fields) (response : Response) : State :=
  { s.withStage id (.answered response) with log := .answered id request response :: s.log }

def jobOf (host : Host) (v : Json) : Option ℤ :=
  (host.intOf v).filter fun n => -2 ^ 63 ≤ n ∧ n < 2 ^ 63

def workOf (host : Host) (cfg : Config) (request : Fields) : Option Work :=
  match Protocol.get request "operation" with
  | some (.str op) =>
    if op ∈ Protocol.handshakeOperations ∨ op ∈ Protocol.credentialedOperations ∨
        op ∉ Protocol.allowedOperations ∨ op ∉ cfg.opImpls then none
    else
      ((Protocol.get request "provisioning_job_id").bind (jobOf host)).map fun job =>
        ⟨request, op, job⟩
  | _ => none

def dispatchRequest (host : Host) (cfg : Config) (s : State) (id : ℕ) (request : Fields) : State :=
  match Protocol.get request "operation" with
  | some (.str op) =>
    if op ∈ Protocol.handshakeOperations then s.answer id (some request) (handshake host cfg request)
    else if op ∈ Protocol.credentialedOperations then
      if ¬ cfg.implIntegrityOk (implName op) then
        s.answer id (some request) (denied host cfg (some request) "impl_integrity_mismatch")
      else if ¬ cfg.hasLoginValidator then
        s.answer id (some request) (denied host cfg (some request) "validation_unconfigured")
      else
        match Protocol.get request "payload" with
        | some (.obj _) => s.withStage id (.login request)
        | _ => s.answer id (some request) (denied host cfg (some request) "payload_missing")
    else if op ∉ Protocol.allowedOperations ∨ op ∉ cfg.opImpls then
      s.answer id (some request) (denied host cfg (some request) "operation_not_allowed")
    else
      match workOf host cfg request with
      | none => s.answer id (some request) (internalError host cfg (some request))
      | some w =>
        match s.idem.get w.pair with
        | some row =>
          if row.digest ≠ w.digest host then
            s.answer id (some request) (denied host cfg (some request) "job_op_conflict")
          else s.answer id (some request) row.response
        | none => { s.withStage id (.missed w) with log := .missed id w :: s.log }
  | _ => s.answer id (some request) (internalError host cfg (some request))

def dispatch (host : Host) (cfg : Config) (s : State) (id : ℕ) : State :=
  match s.stages id, s.channel.verifications id with
  | none, some (.accepted checked) => dispatchRequest host cfg s id checked.request
  | none, some (.refused refusal) =>
    match refusal.reasonCode with
    | some reasonCode => s.answer id none (denied host cfg none reasonCode)
    | none => s.answer id none (internalError host cfg none)
  | _, _ => s

def loginResponse (host : Host) (cfg : Config) (request : Fields) : LoginResult → Response
  | .validated ok reasonCode isDemo =>
    let reason := match reasonCode with
      | some reason => if reason = "" then "could_not_verify" else reason
      | none => "could_not_verify"
    sanitise host cfg (some request) (if ok then .ok else .denied)
      ((isDemo.map fun b => ("is_demo", Json.bool b)).toList) reason ""
  | .refused reasonCode => denied host cfg (some request) reasonCode
  | .raised => internalError host cfg (some request)

/-- The checks before the run, and the permit. -/
def prepare (host : Host) (cfg : Config) (s : State) (id : ℕ) (w : Work) : State :=
  match (Protocol.get w.request "runtime_uuid").bind fun v => host.uuidOf (host.strOf v) with
  | none => s.withStage id (.left w (.refused "bad_runtime_uuid"))
  | some runtime =>
    if ¬ cfg.implIntegrityOk (implName w.op) then
      s.withStage id (.left w (.refused "impl_integrity_mismatch"))
    else if w.op ∈ mutating then
      match s.locks.takePermit with
      | .error busy => s.withStage id (.left w (.refused busy.reasonCode))
      | .ok locks => { s.withStage id (.permitted w runtime) with locks }
    else s.withStage id (.resolving w runtime)

def lockRuntime (s : State) (id : ℕ) (w : Work) (runtime : String) : State :=
  match s.locks.lock runtime id with
  | .error busy => s.withStage id (.unlocked w (.refused busy.reasonCode))
  | .ok locks => { s.withStage id (.resolving w runtime) with locks }

/-- Where a request is when the part that the locks protect is over. -/
def Work.over (w : Work) (runtime : String) (result : Result) : Stage :=
  if w.op ∈ mutating then .ran w runtime result else .left w result

/-- The answer to a request whose implementation has returned. -/
def okResponse (host : Host) (cfg : Config) (w : Work) (raw : Fields) : Response :=
  sanitise host cfg (some w.request) .ok raw "" ((cfg.scriptVersions (implName w.op)).getD "")

/-- The answer is given; that of an implementation that has returned is stored before. -/
def respond (host : Host) (cfg : Config) (s : State) (id : ℕ) (w : Work) : Result → State
  | .returned raw =>
    let response := okResponse host cfg w raw
    { s.answer id (some w.request) response with
      idem := s.idem.insertOrReplace ⟨w.pair, w.digest host, response⟩ }
  | .refused reasonCode => s.answer id (some w.request) (denied host cfg (some w.request) reasonCode)
  | .raised => s.answer id (some w.request) (internalError host cfg (some w.request))

/-- The system of the agent. -/
def step (host : Host) (cfg : Config) (s : State) : Action → State
  | .channel a => { s with channel := Protocol.step host.crypto cfg.protocol s.channel a }
  | .dispatch id => dispatch host cfg s id
  | .validated id result =>
    match s.stages id with
    | some (.login request) => s.answer id (some request) (loginResponse host cfg request result)
    | _ => s
  | .prepare id =>
    match s.stages id with
    | some (.missed w) => prepare host cfg s id w
    | _ => s
  | .lock id =>
    match s.stages id with
    | some (.permitted w runtime) => lockRuntime s id w runtime
    | _ => s
  | .resolved id failure =>
    match s.stages id with
    | some (.resolving w runtime) =>
      match failure with
      | none => { s.withStage id (.running w runtime) with log := .began id w :: s.log }
      | some (.returned _) => s
      | some failure => s.withStage id (w.over runtime failure)
    | _ => s
  | .finish id result =>
    match s.stages id with
    | some (.running w runtime) =>
      let s' := s.withStage id (w.over runtime result)
      match result with
      | .returned raw => { s' with log := .returned id w (okResponse host cfg w raw) :: s.log }
      | _ => s'
    | _ => s
  | .unlock id =>
    match s.stages id with
    | some (.ran w _ result) => { s.withStage id (.unlocked w result) with locks := s.locks.unlock id }
    | _ => s
  | .leave id =>
    match s.stages id with
    | some (.unlocked w result) =>
      { s.withStage id (.left w result) with locks := s.locks.returnPermit }
    | _ => s
  | .answer id =>
    match s.stages id with
    | some (.left w result) => respond host cfg s id w result
    | _ => s
  | .drain => { s with locks := s.locks.beginDrain }

end AgentCore
end GuvFX
