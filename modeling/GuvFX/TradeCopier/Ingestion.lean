/-
# Signed ingestion and its nonces

A request to the ingestion endpoint carries a payload, a set of signed fields, and a signature over
them.  It is verified step by step, and only in the end its nonce is burned: inserted into a table
in which every nonce occurs once.  Nonces whose request has expired may be pruned.

The clock is read when the verification begins, and the nonce is inserted later.  In between other
requests and prunes may move.  The digest of a payload and the keyed hash of the signed fields are
functions of a library, here the fields of `Crypto`.
-/
import Mathlib.Data.Rat.Floor
import Mathlib.Tactic.Linarith
import GuvFX.Lib.Checks
import GuvFX.Lib.Decimal
import GuvFX.Lib.Runs
import GuvFX.TradeCopier.Account

namespace GuvFX
namespace Ingestion

open Checks Decimal Runs

/-! ### Envelopes -/

def ingestProtocolVersion : String := "copier-ingest-1"

def ingestOperation : String := "copier_event_ingest"

def defaultKeyId : String := "copier-ingest"

def defaultMaxSkewSeconds : Time := 30

/-- A request may not be valid for longer. -/
def maxExpiryWindowSeconds : Time := 600

def maxNonceLen : ℕ := 80

/-- The signed fields; a field that is not there is `none`. -/
structure SignedFields where
  protocolVersion : Option String
  accountId : Option ℤ
  operation : Option String
  keyId : Option String
  /-- A timestamp that is no number is `some none`. -/
  timestamp : Option (Option Time)
  expiry : Option (Option Time)
  nonce : Option String
  correlationId : Option String
  payloadDigest : Option String
  deriving DecidableEq, Repr

/-- What arrives; a part that is not there, or not of its type, is `none`. -/
structure Envelope (π : Type*) where
  signed : Option SignedFields
  signature : Option String
  payload : Option π
  deriving DecidableEq, Repr

/-- The library functions behind signing and verification. -/
structure Crypto (π : Type*) where
  /-- The digest of the canonical bytes of a payload. -/
  digest : π → String
  mac : String → SignedFields → String

variable {π : Type*} {crypto : Crypto π}

def signIngestRequest (crypto : Crypto π) (accountId : ℤ) (secret nonce : String) (now : Time)
    (payload : π) (keyId : String := defaultKeyId) (correlationId : String := "")
    (ttlSeconds : Time := defaultMaxSkewSeconds) : Envelope π :=
  let signed : SignedFields :=
    { protocolVersion := some ingestProtocolVersion, accountId := some accountId
      operation := some ingestOperation, keyId := some keyId
      timestamp := some (some now), expiry := some (some (now + ttlSeconds))
      nonce := some nonce, correlationId := some correlationId
      payloadDigest := some (crypto.digest payload) }
  { signed := some signed, signature := some (crypto.mac secret signed), payload := some payload }

def envelopeChecks (crypto : Crypto π) (keyring : String → Option String) (now : Time)
    (signed : SignedFields) (signature : String) (payload : π) : List (Bool × String) :=
  let secret := (keyring (signed.keyId.getD "")).filter fun s => s ≠ ""
  let ts := signed.timestamp.join.getD 0
  let expiry := signed.expiry.join.getD 0
  let nonce := signed.nonce.getD ""
  [(signed.protocolVersion.isSome && signed.accountId.isSome && signed.operation.isSome &&
      signed.keyId.isSome && signed.timestamp.isSome && signed.expiry.isSome &&
      signed.nonce.isSome && signed.correlationId.isSome && signed.payloadDigest.isSome,
    "missing_signed_field"),
   (signed.protocolVersion = some ingestProtocolVersion, "bad_protocol_version"),
   (signed.operation = some ingestOperation, "bad_operation"),
   (secret.isSome, "unknown_key_id"),
   (secret.any fun s => crypto.mac s signed = signature, "bad_signature"),
   (signed.timestamp.join.isSome && signed.expiry.join.isSome, "bad_timestamp"),
   (|now - ts| ≤ defaultMaxSkewSeconds, "timestamp_skew"),
   (now ≤ expiry, "request_expired"),
   (expiry - ts ≤ maxExpiryWindowSeconds, "expiry_too_far"),
   (crypto.digest payload = signed.payloadDigest.getD "", "payload_digest_mismatch"),
   (nonce ≠ "", "missing_signed_field"),
   (nonce.length ≤ maxNonceLen, "nonce_too_long")]

/-- A request that has passed its verification and is about to burn its nonce. -/
structure Verified (π : Type*) where
  nonce : String
  expiry : Time
  payload : π
  deriving DecidableEq, Repr

/-- The verification of an envelope, up to the burn of its nonce. -/
def verifyIngestRequest (crypto : Crypto π) (keyring : String → Option String) (now : Time)
    (envelope : Envelope π) : Except String (Verified π) :=
  match envelope.signed, envelope.signature, envelope.payload with
  | some signed, some signature, some payload =>
    match firstRefusal (envelopeChecks crypto keyring now signed signature payload) with
    | some reason => .error reason
    | none =>
      .ok { nonce := signed.nonce.getD "", expiry := signed.expiry.join.getD 0, payload }
  | _, _, _ => .error "malformed_envelope"

lemma of_verifyIngestRequest {keyring : String → Option String} {now : Time}
    {envelope : Envelope π} {v : Verified π}
    (h : verifyIngestRequest crypto keyring now envelope = .ok v) :
    now ≤ v.expiry ∧ ∃ signed secret, envelope.signed = some signed ∧
      envelope.signature = some (crypto.mac secret signed) ∧
      signed.nonce = some v.nonce ∧ signed.expiry = some (some v.expiry) := by
  unfold verifyIngestRequest at h
  split at h
  · rename_i signed signature payload hsigned hsignature hpayload
    split at h
    · cases h
    · rename_i hchecks
      have hall := firstRefusal_eq_none_iff.mp hchecks
      simp only [envelopeChecks, List.forall_mem_cons, decide_eq_true_eq] at hall
      obtain ⟨-, -, -, -, hmac, hnumbers, -, hnow, -, -, hnonce, -⟩ := hall
      obtain rfl := Except.ok.inj h
      obtain ⟨secret, -, hsig⟩ := (Option.any_eq_true _ _).mp hmac
      refine ⟨hnow, signed, secret, hsigned, ?_, ?_, ?_⟩
      · rw [hsignature, of_decide_eq_true hsig]
      · cases hn : signed.nonce with
        | none => simp [hn] at hnonce
        | some n => rfl
      · cases he : signed.expiry with
        | none => simp [he] at hnumbers
        | some e =>
          cases e with
          | none => simp [he] at hnumbers
          | some x => rfl
  · cases h

/-! ### Nonces -/

/-- A moment as it is stored, in microseconds, halves to the even one. -/
def fromTimestamp (t : Time) : Time := quantizeEven 6 t

/-- The clock as a prune reads it, cut to microseconds. -/
def timezoneNow (clock : Time) : Time := ⌊clock * 10 ^ 6⌋ / 10 ^ 6

lemma lt_of_fromTimestamp_lt {expiry clock cutoff : Time}
    (h : fromTimestamp expiry < cutoff) (hcutoff : cutoff ≤ timezoneNow clock) :
    expiry < clock := by
  have hmicro : (0 : ℚ) < 10 ^ 6 := by norm_num
  -- in whole microseconds the stored moment lies before the cut clock
  obtain ⟨k, hk, hnear⟩ := exists_quantizeEven 6 expiry
  have hlt : (k : ℚ) / 10 ^ 6 < ⌊clock * 10 ^ 6⌋ / 10 ^ 6 := by
    rw [← hk]
    exact h.trans_le hcutoff
  have hint : k + 1 ≤ ⌊clock * 10 ^ 6⌋ := by
    have hcast : (k : ℚ) < ⌊clock * 10 ^ 6⌋ := (div_lt_div_iff_of_pos_right hmicro).mp hlt
    exact_mod_cast hcast
  have hclock : ((k + 1 : ℤ) : ℚ) ≤ clock * 10 ^ 6 := by
    refine le_trans ?_ (Int.floor_le _)
    exact_mod_cast hint
  push_cast at hclock
  have hscaled : expiry * 10 ^ 6 < clock * 10 ^ 6 := by linarith
  exact lt_of_mul_lt_mul_right hscaled hmicro.le

end Ingestion
end GuvFX
