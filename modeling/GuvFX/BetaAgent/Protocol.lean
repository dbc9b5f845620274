/-
# The protocol of the management channel

A request is a dictionary of a fixed schema.  Its signature is a keyed hash of the canonical text of
the signed fields; a payload is carried beside them and bound through its digest.  The agent looks at
the schema, the times, the signature and the digest in one step, and burns the nonce in a later one.
-/
import Mathlib.Algebra.Order.Group.Int
import Mathlib.Algebra.Order.Group.Abs
import GuvFX.Lib.Json
import GuvFX.Lib.Rows
import GuvFX.Lib.Runs

namespace GuvFX
namespace Protocol

open Runs

/-! ### Dictionaries -/

/-- The members of a dictionary, each name once. -/
abbrev Fields := List (String × Json)

def get (fields : Fields) (name : String) : Option Json :=
  (fields.find? fun m => m.1 = name).map (·.2)

/-! ### The schema -/

def protocolVersion : ℤ := 1

def provisioningOperations : List String :=
  ["MATERIALISE", "START", "VERIFY", "STOP", "TOMBSTONE", "RELEASE"]

def credentialedOperations : List String := ["VALIDATE_LOGIN"]

def handshakeOperations : List String := ["NEGOTIATE"]

def allowedOperations : List String :=
  provisioningOperations ++ credentialedOperations ++ handshakeOperations

def signedFields : List String :=
  ["protocol_version", "provisioning_job_id", "runtime_uuid", "operation", "timestamp", "expiry",
    "nonce", "correlation_id", "key_id"]

def semanticFields : List String :=
  ["protocol_version", "provisioning_job_id", "runtime_uuid", "operation"]

/-- The longest time between the timestamp and the expiry of a request. -/
def maxLifetime : ℤ := 600

/-- The library functions behind signing and verification, on the characters of a text. -/
structure Crypto where
  /-- The keyed hash of a text, under a secret. -/
  hmac : String → List Char → String
  sha256 : List Char → String
  hmac_ne : ∀ secret text, hmac secret text ≠ ""

/-- Why a request is refused. -/
inductive Refusal
  | malformedRequest | unsupportedProtocolVersion | operationNotAllowed | missingField
  | missingSignature | unknownKeyId | malformedTime | timestampSkew | requestExpired | expiryTooFar
  | badSignature | payloadMissing | payloadDigestMismatch | nonceReplayed
  | payloadRequired
  /-- Something has been raised that is not a refusal of the protocol. -/
  | exception
  deriving DecidableEq, Repr

/-- The fields that the canonical body is made of; the digest of a payload belongs to it when there is
one. -/
def bodyNames (fields : Fields) : List String :=
  signedFields ++ if (get fields "payload_digest").isSome then ["payload_digest"] else []

def bodyFields (fields : Fields) : Fields :=
  (bodyNames fields).filterMap fun name => (get fields name).map fun v => (name, v)

/-- The text that the signature covers. -/
def canonicalBody (fields : Fields) : List Char := Json.dumps (.obj (bodyFields fields))

def payloadDigestOf (crypto : Crypto) (payload : Json) : String :=
  crypto.sha256 (Json.dumps payload)

def semanticDigest (crypto : Crypto) (fields : Fields) : String :=
  crypto.sha256 (Json.dumps (.obj (semanticFields.filterMap fun name =>
    (get fields name).map fun v => (name, v))))

/-! ### Signing -/

structure SignArgs where
  provisioningJobId : ℤ
  runtimeUuid : String
  operation : String
  correlationId : String
  keyring : List (String × String)
  keyId : String
  now : ℤ
  ttlSeconds : ℤ := 30
  nonce : Option String := none
  /-- The random text that is the nonce otherwise. -/
  token : String
  payload : Option Fields := none

def secretOf (keyring : List (String × String)) (keyId : String) : Option String :=
  (keyring.find? fun k => k.1 = keyId).map (·.2)

def SignArgs.usedNonce (args : SignArgs) : String :=
  match args.nonce with
  | some nonce => if nonce = "" then args.token else nonce
  | none => args.token

def SignArgs.fields (crypto : Crypto) (args : SignArgs) : Fields :=
  [("protocol_version", .int protocolVersion),
    ("provisioning_job_id", .int args.provisioningJobId),
    ("runtime_uuid", .str args.runtimeUuid),
    ("operation", .str args.operation),
    ("timestamp", .int args.now),
    ("expiry", .int (args.now + args.ttlSeconds)),
    ("nonce", .str args.usedNonce),
    ("correlation_id", .str args.correlationId),
    ("key_id", .str args.keyId)] ++
  match args.payload with
  | some payload =>
    [("payload_digest", .str (payloadDigestOf crypto (.obj payload))), ("payload", .obj payload)]
  | none => []

def signRequest (crypto : Crypto) (args : SignArgs) : Except Refusal Fields :=
  if args.operation ∉ allowedOperations then .error .operationNotAllowed
  else
    match secretOf args.keyring args.keyId with
    | none => .error .unknownKeyId
    | some secret =>
      if args.payload = none ∧ args.operation ∈ credentialedOperations then .error .payloadRequired
      else
        let fields := args.fields crypto
        .ok (fields ++ [("signature", .str (crypto.hmac secret (canonicalBody fields)))])

/-! ### Verification -/

/-- The settings of the agent. -/
structure Config where
  keyring : List (String × String)
  maxSkewSeconds : ℤ := 30

/-- Is the value equal to the number one?  So are `True` and `1.0`. -/
def isOne : Json → Bool
  | .int n => n = 1
  | .bool b => b
  | .float x => x.chars = ['1', '.', '0']
  | _ => false

/-- The value as an integer, if it is one; so are the truth values. -/
def asInt : Json → Option ℤ
  | .int n => some n
  | .bool b => some (if b then 1 else 0)
  | _ => none

/-- The text of a value that may be a digest; the texts of the other values are none. -/
def digestText : Json → Option String
  | .str s => some s
  | .int n => some (String.ofList (Json.intText n))
  | _ => none

/-- A request that has passed the checks and is about to burn its nonce. -/
structure Checked where
  request : Fields
  nonce : Json
  expiry : ℤ

def payloadCheck (crypto : Crypto) (request : Fields) (operation : String) : Option Refusal :=
  let digest := get request "payload_digest"
  if operation ∈ credentialedOperations ∨ digest.isSome then
    match get request "payload", digest with
    | some (.obj payload), some digest =>
      if digestText digest = some (payloadDigestOf crypto (.obj payload)) then none
      else some .payloadDigestMismatch
    | _, _ => some .payloadMissing
  else none

/-- The checks of a request that is a dictionary, up to the nonce. -/
def verifyFields (crypto : Crypto) (cfg : Config) (now : ℤ) (request : Fields) :
    Except Refusal Checked :=
  if ¬ (get request "protocol_version").any isOne then .error .unsupportedProtocolVersion
  else
  match get request "operation" with
  | some (.str operation) =>
    if operation ∉ allowedOperations then .error .operationNotAllowed
    else if signedFields.any fun name => (get request name).isNone then .error .missingField
    else
    match get request "signature" with
    | some (.str signature) =>
      if signature = "" then .error .missingSignature
      else
      match get request "key_id" with
      | some (.str keyId) =>
        match secretOf cfg.keyring keyId with
        | none => .error .unknownKeyId
        | some secret =>
          match (get request "timestamp").bind asInt, (get request "expiry").bind asInt with
          | some ts, some exp =>
            if |now - ts| > cfg.maxSkewSeconds then .error .timestampSkew
            else if now > exp then .error .requestExpired
            else if exp - ts > maxLifetime then .error .expiryTooFar
            else if crypto.hmac secret (canonicalBody request) ≠ signature then .error .badSignature
            else
            match payloadCheck crypto request operation with
            | some refusal => .error refusal
            | none =>
              match get request "nonce" with
              | some nonce => .ok ⟨request, nonce, exp⟩
              | none => .error .missingField
          | _, _ => .error .malformedTime
      -- a list or a dictionary cannot be looked up
      | some (.arr _) | some (.obj _) => .error .exception
      | _ => .error .unknownKeyId
    | _ => .error .missingSignature
  | _ => .error .operationNotAllowed

def verifyChecks (crypto : Crypto) (cfg : Config) (now : ℤ) : Json → Except Refusal Checked
  | .obj request => verifyFields crypto cfg now request
  | _ => .error .malformedRequest

/-! ### The store of the nonces -/

structure NonceRow where
  nonce : String
  expiry : ℤ
  deriving DecidableEq, Repr

abbrev Nonces := Rows NonceRow NonceRow.nonce

/-- Record a nonce, and tell whether it is the first time.  A missing value is never equal to another
one; a list or a dictionary cannot be recorded. -/
def burn (nonces : Nonces) (nonce : Json) (expiry : ℤ) : Option (Bool × Nonces) :=
  let record (text : String) : Bool × Nonces :=
    match nonces.insert ⟨text, expiry⟩ with
    | some nonces' => (true, nonces')
    | none => (false, nonces)
  match nonce with
  | .str s => some (record s)
  | .int n => some (record (String.ofList (Json.intText n)))
  | .bool b => some (record (if b then "1" else "0"))
  | .float x => some (record (String.ofList x.chars))
  | .null => some (true, nonces)
  | .arr _ | .obj _ => none

def purgeExpiredNonces (nonces : Nonces) (now : ℤ) : Nonces := nonces.delete fun r => r.expiry < now

/-! ### The system -/

structure Signed where
  args : SignArgs
  secret : String
  fields : Fields

inductive Verification
  | burning (checked : Checked)
  | refused (refusal : Refusal)
  | accepted (checked : Checked)

/-- The agent, with the key holders and the clock. -/
structure State where
  clock : ℤ
  nonces : Nonces
  signed : List Signed
  verifications : ℕ → Option Verification
  /-- The requests that have been accepted, the last one first. -/
  accepted : List Checked
  /-- The latest time for which nonces have been purged. -/
  purgedTo : Option ℤ

/-- An agent that has just been installed. -/
def State.initial (clock : ℤ) : State := ⟨clock, .empty, [], fun _ => none, [], none⟩

/-- What can happen. -/
inductive Action
  | tick (seconds : ℕ)
  /-- A key holder signs a request, by whatever clock. -/
  | sign (args : SignArgs)
  /-- A request arrives: the agent reads the clock and makes its checks. -/
  | verify (id : ℕ) (request : Json)
  /-- A request that has passed the checks burns its nonce. -/
  | burn (id : ℕ)
  /-- The nonces that have expired at a time, read from the clock, are purged. -/
  | purge (now : ℤ)

def State.withVerification (s : State) (id : ℕ) (v : Verification) : State :=
  { s with verifications := Function.update s.verifications id (some v) }

/-- A verification comes to its nonce. -/
def burnStep (s : State) (id : ℕ) : State :=
  match s.verifications id with
  | some (.burning checked) =>
    match burn s.nonces checked.nonce checked.expiry with
    | none => s.withVerification id (.refused .exception)
    | some (false, _) => s.withVerification id (.refused .nonceReplayed)
    | some (true, nonces) =>
      { s.withVerification id (.accepted checked) with nonces, accepted := checked :: s.accepted }
  | _ => s

/-- The system of the agent and the key holders. -/
def step (crypto : Crypto) (cfg : Config) (s : State) : Action → State
  | .tick seconds => { s with clock := s.clock + seconds }
  | .sign args =>
    match signRequest crypto args, secretOf args.keyring args.keyId with
    | .ok fields, some secret => { s with signed := ⟨args, secret, fields⟩ :: s.signed }
    | _, _ => s
  | .verify id request =>
    match s.verifications id with
    | some _ => s
    | none =>
      match verifyChecks crypto cfg s.clock request with
      | .ok checked => s.withVerification id (.burning checked)
      | .error refusal => s.withVerification id (.refused refusal)
  | .burn id => burnStep s id
  | .purge now =>
    if now ≤ s.clock then
      { s with
        nonces := purgeExpiredNonces s.nonces now
        purgedTo := some (max now (s.purgedTo.getD now)) }
    else s

end Protocol
end GuvFX
