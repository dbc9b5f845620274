/-
# The protocol between the backend and a host

A request names one of the operations that a host may be asked for, and an account.  The parameters and
the payload are carried beside the signed fields: the digest of the parameters is one of them, and that
of the payload is there when a payload has been signed.  The host looks at the fields, the account, the
times, the signature and the digests, and burns the nonce last.  It signs its answers with the same keys.
-/
import GuvFX.BetaAgent.Protocol
import GuvFX.Lib.SignedBody

namespace GuvFX
namespace HostProtocol

open Runs
open SignedBody (Fields get)
open Protocol (Crypto secretOf isOne asInt digestText)

/-! ### The schema -/

def hostedProtocolVersion : ℤ := 1

def hostedOperations : List String :=
  ["PROVISION_IDENTITY", "APPLY_WORKSPACE_ACL", "ROLLBACK_WORKSPACE_ACL", "MATERIALISE_RUNTIME",
    "VERIFY_RUNTIME_BUILD", "VERIFY_NATIVE_LAUNCHER", "APPLY_LIVEUPDATE_CONTAINMENT",
    "APPLY_AUTOTRADING_CONFIG", "ENSURE_RDP_MEMBERSHIP", "ENSURE_SINGLE_SESSION", "ENSURE_REMOTEAPP",
    "REMOVE_REMOTEAPP", "PREPARE_OBSERVER", "REMOVE_OBSERVER", "OBSERVE_WORKSPACE",
    "APPLY_APPLOCKER_AUDIT", "REMOVE_APPLOCKER_TENANT", "VERIFY_SLOT", "PROBE_SESSION",
    "ACTIVATE_ORDER_BRIDGE", "ACTIVATE_TENANT_BRIDGE", "RELAUNCH_TERMINAL", "PRESEED_BROKER_ARTEFACT",
    "DECOMMISSION_RUNTIME", "ACTIVATE_TENANT_BRIDGE_LIVE_AUTHORIZED",
    "RESTORE_TENANT_BRIDGE_EXECUTION_OFF", "STAGE_CATALOGUE_ARTEFACT", "ATTEST_CATALOGUE_ARTEFACT"]

def credentialedHostedOperations : List String := ["PROVISION_IDENTITY"]

def accountIndependentOperations : List String :=
  ["STAGE_CATALOGUE_ARTEFACT", "ATTEST_CATALOGUE_ARTEFACT"]

def signedFields : List String :=
  ["protocol_version", "account_id", "operation", "params_digest", "timestamp", "expiry", "nonce",
    "correlation_id", "key_id"]

def maxExpiryWindow : ℤ := 600

/-- Why a request is refused. -/
inductive Refusal
  | malformedRequest | unsupportedProtocolVersion | operationNotAllowed | missingField
  | missingSignature | unknownKeyId | accountIdInvalid | malformedTime | timestampSkew
  | requestExpired | expiryTooFar | badSignature | paramsDigestMismatch | payloadMissing
  | payloadDigestMismatch | nonceReplayed | accountIdNotInt | accountIdOutOfRange | payloadRequired
  /-- Something has been raised that is not a refusal of the protocol. -/
  | exception
  deriving DecidableEq, Repr

/-- The library functions behind the protocol, with the texts that the hashes give. -/
structure Library extends Crypto where
  /-- What `dict` makes of a value that is not a dictionary. -/
  dictOf : Json → Option Fields
  hmac_hex : ∀ secret text, ∀ c ∈ (hmac secret text).toList, c ∈ "0123456789abcdef".toList
  sha256_hex : ∀ text, ∀ c ∈ (sha256 text).toList, c ∈ "0123456789abcdef".toList

def digest (lib : Library) (v : Json) : String := lib.sha256 (Json.dumps v)

/-- The text that the signature covers. -/
def canonicalBody (fields : Fields) : List Char :=
  SignedBody.canonicalBody signedFields "payload_digest" fields

/-! ### Signing -/

structure SignArgs where
  accountId : Option ℤ
  operation : String
  correlationId : String
  keyring : List (String × String)
  keyId : String
  now : ℤ
  params : Option Fields := none
  ttlSeconds : ℤ := 30
  nonce : Option String := none
  /-- The random text that is the nonce otherwise. -/
  token : String
  payload : Option Fields := none

def SignArgs.usedNonce (args : SignArgs) : String :=
  match args.nonce with
  | some nonce => if nonce = "" then args.token else nonce
  | none => args.token

def SignArgs.fields (lib : Library) (args : SignArgs) (acct : ℤ) : Fields :=
  [("protocol_version", .int hostedProtocolVersion),
    ("account_id", .int acct),
    ("operation", .str args.operation),
    ("params_digest", .str (digest lib (.obj (args.params.getD [])))),
    ("timestamp", .int args.now),
    ("expiry", .int (args.now + args.ttlSeconds)),
    ("nonce", .str args.usedNonce),
    ("correlation_id", .str args.correlationId),
    ("key_id", .str args.keyId),
    ("params", .obj (args.params.getD []))] ++
  match args.payload with
  | some payload =>
    [("payload_digest", .str (digest lib (.obj payload))), ("payload", .obj payload)]
  | none => []

def accountFits (operation : String) (acct : ℤ) : Bool :=
  if operation ∈ accountIndependentOperations then acct = 0 else 0 < acct

def signHostedRequest (lib : Library) (args : SignArgs) : Except Refusal Fields :=
  if args.operation ∉ hostedOperations then .error .operationNotAllowed
  else
    match secretOf args.keyring args.keyId, args.accountId with
    | none, _ => .error .unknownKeyId
    | some _, none => .error .accountIdNotInt
    | some secret, some acct =>
      if !accountFits args.operation acct then .error .accountIdOutOfRange
      else if args.payload = none ∧ args.operation ∈ credentialedHostedOperations then
        .error .payloadRequired
      else
        let fields := args.fields lib acct
        .ok (fields ++ [("signature", .str (lib.hmac secret (canonicalBody fields)))])

/-! ### Verification -/

/-- Is the value taken for true? -/
def truthy : Json → Bool
  | .null => false
  | .bool b => b
  | .int n => n ≠ 0
  | .float x => x.chars ≠ "0.0".toList ∧ x.chars ≠ "-0.0".toList
  | .str s => s ≠ ""
  | .arr items => !items.isEmpty
  | .obj members => !members.isEmpty

/-- The value, or an empty dictionary in the place of one that is not taken for true. -/
def orEmpty : Option Json → Json
  | some v => if truthy v then v else .obj []
  | none => .obj []

/-- `dict` of a value. -/
def asDict (lib : Library) : Json → Option Fields
  | .obj members => some members
  | v => lib.dictOf v

/-- `compare_digest` on a text of one's own and another one; it raises on texts beyond ASCII. -/
def compareDigest (expected given : String) (refusal : Refusal) : Except Refusal Unit :=
  if given.toList.any fun c => 128 ≤ c.toNat then .error .exception
  else if expected ≠ given then .error refusal
  else .ok ()

/-- The same on the text of a value; the texts of values that are neither texts nor numbers are no
digests. -/
def compareValue (expected : String) (given : Option Json) (refusal : Refusal) : Except Refusal Unit :=
  match given.bind digestText with
  | some given => compareDigest expected given refusal
  | none => .error refusal

/-- What the fields of a request say about the operation and the key. -/
structure Header where
  operation : String
  secret : String
  signature : String

def headerChecks (keyring : List (String × String)) (request : Fields) : Except Refusal Header :=
  if ¬ (get request "protocol_version").any isOne then .error .unsupportedProtocolVersion
  else
  match get request "operation" with
  | some (.str operation) =>
    if operation ∉ hostedOperations then .error .operationNotAllowed
    else if signedFields.any fun name => (get request name).isNone then .error .missingField
    else
    match get request "signature" with
    | some (.str signature) =>
      if signature = "" then .error .missingSignature
      else
      match get request "key_id" with
      | some (.str keyId) =>
        match secretOf keyring keyId with
        | none => .error .unknownKeyId
        | some secret =>
          match (get request "account_id").bind asInt with
          | none => .error .accountIdInvalid
          | some acct =>
            if !accountFits operation acct then .error .accountIdInvalid
            else .ok { operation, secret, signature }
      -- a list or a dictionary cannot be looked up
      | some (.arr _) | some (.obj _) => .error .exception
      | _ => .error .unknownKeyId
    | _ => .error .missingSignature
  | _ => .error .operationNotAllowed

def timeChecks (now maxSkewSeconds : ℤ) (request : Fields) : Except Refusal ℤ :=
  match (get request "timestamp").bind asInt, (get request "expiry").bind asInt with
  | some ts, some exp =>
    if |now - ts| > maxSkewSeconds then .error .timestampSkew
    else if now > exp then .error .requestExpired
    else if exp - ts > maxExpiryWindow then .error .expiryTooFar
    else .ok exp
  | _, _ => .error .malformedTime

def payloadCheck (lib : Library) (request : Fields) (operation : String) : Except Refusal Unit :=
  let digested := get request "payload_digest"
  if operation ∈ credentialedHostedOperations ∨ digested.isSome then
    match get request "payload", digested with
    | some (.obj payload), some given =>
      compareValue (digest lib (.obj payload)) (some given) .payloadDigestMismatch
    | _, _ => .error .payloadMissing
  else .ok ()

/-- All the checks, up to the nonce; the expiry of the request. -/
def verifyChecks (lib : Library) (keyring : List (String × String)) (now maxSkewSeconds : ℤ)
    (request : Fields) : Except Refusal ℤ := do
  let header ← headerChecks keyring request
  let expiry ← timeChecks now maxSkewSeconds request
  compareDigest (lib.hmac header.secret (canonicalBody request)) header.signature .badSignature
  compareValue (digest lib (orEmpty (get request "params"))) (get request "params_digest")
    .paramsDigestMismatch
  payloadCheck lib request header.operation
  return expiry

/-- What the caller gets of a request: the signed fields, the parameters, and the payload if there is
one. -/
def returned (request params : Fields) : Fields :=
  SignedBody.pick request signedFields ++
    ("params", .obj params) :: (get request "payload").toList.map fun v => ("payload", v)

abbrev Nonces := List (List Char)

/-- The single-use store: is it the first time, and the store after it. -/
def burn (nonces : Nonces) (nonce : Json) : Bool × Nonces :=
  if Json.dumps nonce ∈ nonces then (false, nonces) else (true, Json.dumps nonce :: nonces)

/-- The verification of a request, with the store of the nonces after it. -/
def verifyHostedRequest (lib : Library) (keyring : List (String × String)) (now maxSkewSeconds : ℤ)
    (nonces : Nonces) : Json → Except Refusal Fields × Nonces
  | .obj request =>
    match verifyChecks lib keyring now maxSkewSeconds request, get request "nonce" with
    | .error refusal, _ => (.error refusal, nonces)
    | .ok _, none => (.error .missingField, nonces)
    | .ok _, some nonce =>
      match burn nonces nonce with
      | (false, nonces) => (.error .nonceReplayed, nonces)
      | (true, nonces) =>
        match asDict lib (orEmpty (get request "params")) with
        | some params => (.ok (returned request params), nonces)
        | none => (.error .exception, nonces)
  | _ => (.error .malformedRequest, nonces)

/-! ### Answers -/

/-- The text that the signature of an answer covers. -/
def responseBody (lib : Library) (keyId correlationId nonce : String) (result : Fields) : List Char :=
  (digest lib (.obj
    [("result", .obj result), ("correlation_id", .str correlationId), ("nonce", .str nonce),
      ("key_id", .str keyId)])).toList

/-! ### The system -/

structure Signed where
  args : SignArgs
  secret : String
  fields : Fields

/-- The key holders and a host. -/
structure State where
  nonces : Nonces
  signed : List Signed
  /-- The secrets and the texts under which answers have been signed. -/
  answered : List (String × List Char)
  /-- What callers have got of the requests that were accepted, the last one first. -/
  accepted : List Fields

def State.initial : State := ⟨[], [], [], []⟩

/-- What can happen. -/
inductive Action
  /-- A key holder signs a request, by whatever clock. -/
  | sign (args : SignArgs)
  /-- A host signs an answer. -/
  | respond (keyring : List (String × String)) (keyId correlationId nonce : String) (result : Fields)
  | verify (now maxSkewSeconds : ℤ) (request : Json)

/-- The system of the key holders and a host with the given keys. -/
def step (lib : Library) (keyring : List (String × String)) (s : State) : Action → State
  | .sign args =>
    match signHostedRequest lib args, secretOf args.keyring args.keyId with
    | .ok fields, some secret => { s with signed := ⟨args, secret, fields⟩ :: s.signed }
    | _, _ => s
  | .respond keys keyId correlationId nonce result =>
    match secretOf keys keyId with
    | some secret =>
      { s with answered := (secret, responseBody lib keyId correlationId nonce result) :: s.answered }
    | none => s
  | .verify now maxSkewSeconds request =>
    match verifyHostedRequest lib keyring now maxSkewSeconds s.nonces request with
    | (.ok fields, nonces) => { s with nonces, accepted := fields :: s.accepted }
    | (.error _, nonces) => { s with nonces }

end HostProtocol
end GuvFX
