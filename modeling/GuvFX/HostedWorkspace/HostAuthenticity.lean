/-
# What a host accepts

With a keyed hash that nobody forges and a digest without collisions, what a host gets of an accepted
request is what a key holder has signed: the signed fields, the parameters, and the payload if one was
signed.  An answer of a host is signed under the same keys, but its text is a digest and no body of a
request.  A nonce is accepted once, and a request that is refused burns none.

A request that was signed without a payload has no digest of one, and nothing looks at a payload that
was put beside it.
-/
import Mathlib.Algebra.Order.Ring.Int
import GuvFX.BetaAgent.ProtocolRuns
import GuvFX.HostedWorkspace.HostProtocol

namespace GuvFX
namespace HostProtocol

open Runs
open SignedBody (Fields get Plain canonicalBody_head fields_eq_of_body_eq get_append_of_ne)
open Protocol (secretOf isOne asInt digestText strOf)

variable {lib : Library} {keyring : List (String × String)} {now maxSkewSeconds acct : ℤ}
  {request fields fields' : Fields} {args : SignArgs} {name secret operation : String} {s : State}
  {a : Action}

/-! ### Checks that pass -/

/-- A sequence of two computations succeeds when both do. -/
lemma bind_eq_ok {α β : Type} {x : Except Refusal α} {f : α → Except Refusal β} {b : β} :
    x >>= f = .ok b ↔ ∃ a, x = .ok a ∧ f a = .ok b := by
  cases x with
  | error e => exact ⟨nofun, fun ⟨_, h, _⟩ => nomatch h⟩
  | ok a =>
    constructor
    · exact fun h => ⟨a, rfl, h⟩
    · rintro ⟨a', ha', h⟩
      obtain rfl := Except.ok.inj ha'
      exact h

lemma eq_of_compareDigest {expected given : String} {refusal : Refusal}
    (h : compareDigest expected given refusal = .ok ()) : expected = given := by
  unfold compareDigest at h
  split_ifs at h with _ hsame
  exact not_not.mp hsame

/-- A hexadecimal text is equal to itself for `compare_digest`. -/
lemma compareDigest_self {text : String} (refusal : Refusal)
    (hhex : ∀ c ∈ text.toList, c ∈ "0123456789abcdef".toList) :
    compareDigest text text refusal = .ok () := by
  have hascii : ∀ c ∈ "0123456789abcdef".toList, ¬ 128 ≤ c.toNat := by simp
  have hnone : (text.toList.any fun c => decide (128 ≤ c.toNat)) = false := by
    rw [List.any_eq_false]
    intro c hc
    simpa using hascii c (hhex c hc)
  rw [compareDigest, hnone]
  simp

lemma eq_of_compareValue {expected : String} {given : Option Json} {refusal : Refusal}
    (h : compareValue expected given refusal = .ok ()) : given.bind digestText = some expected := by
  unfold compareValue at h
  split at h
  next text htext => rw [htext, eq_of_compareDigest h]
  · cases h

lemma compareValue_self {text : String} (refusal : Refusal)
    (hhex : ∀ c ∈ text.toList, c ∈ "0123456789abcdef".toList) :
    compareValue text (some (.str text)) refusal = .ok () := compareDigest_self refusal hhex

structure HeaderFits (keyring : List (String × String)) (request : Fields) (header : Header) : Prop where
  version : (get request "protocol_version").any isOne
  hasOperation : get request "operation" = some (.str header.operation)
  allowed : header.operation ∈ hostedOperations
  complete : ¬ signedFields.any fun name => (get request name).isNone
  hasSignature : get request "signature" = some (.str header.signature)
  nonempty : header.signature ≠ ""
  key : ∃ keyId, get request "key_id" = some (.str keyId) ∧ secretOf keyring keyId = some header.secret
  account : ∃ acct, (get request "account_id").bind asInt = some acct ∧
    accountFits header.operation acct = true

lemma headerFits_of_checks {header : Header} (h : headerChecks keyring request = .ok header) :
    HeaderFits keyring request header := by
  unfold headerChecks at h
  split at h
  · cases h
  next hversion =>
    split at h
    case h_2 => cases h
    next operation hoperation =>
      split at h
      · cases h
      next hallowed =>
        split at h
        · cases h
        next hcomplete =>
          split at h
          case h_2 => cases h
          next signature hsignature =>
            split at h
            · cases h
            next hnonempty =>
              split at h
              case h_2 => cases h
              case h_3 => cases h
              case h_4 => cases h
              next keyId hkeyId =>
                split at h
                · cases h
                next secret hsecret =>
                  split at h
                  · cases h
                  next acct hacct =>
                    split at h
                    · cases h
                    next hfits =>
                      obtain rfl := Except.ok.inj h
                      exact
                        { version := not_not.mp hversion
                          hasOperation := hoperation
                          allowed := not_not.mp hallowed
                          complete := hcomplete
                          hasSignature := hsignature
                          nonempty := hnonempty
                          key := ⟨keyId, hkeyId, hsecret⟩
                          account := ⟨acct, hacct, by simpa using hfits⟩ }

lemma headerChecks_of_fits {header : Header} (h : HeaderFits keyring request header) :
    headerChecks keyring request = .ok header := by
  obtain ⟨keyId, hkeyId, hsecret⟩ := h.key
  obtain ⟨acct, hacct, hfits⟩ := h.account
  rw [headerChecks, if_neg (not_not.mpr h.version), h.hasOperation]
  simp only [if_neg (not_not.mpr h.allowed), if_neg h.complete, h.hasSignature, if_neg h.nonempty,
    hkeyId, hsecret, hacct, hfits, Bool.not_true, Bool.false_eq_true, if_false]

/-- What a request is like that passes all the checks. -/
structure Passes (lib : Library) (keyring : List (String × String)) (now maxSkewSeconds : ℤ)
    (request : Fields) (expiry : ℤ) (header : Header) : Prop where
  fits : HeaderFits keyring request header
  times : timeChecks now maxSkewSeconds request = .ok expiry
  authentic : lib.hmac header.secret (canonicalBody request) = header.signature
  params : ((get request "params_digest").bind digestText) =
    some (digest lib (orEmpty (get request "params")))
  payload : payloadCheck lib request header.operation = .ok ()

lemma passes_of_verifyChecks {expiry : ℤ}
    (h : verifyChecks lib keyring now maxSkewSeconds request = .ok expiry) :
    ∃ header, Passes lib keyring now maxSkewSeconds request expiry header := by
  unfold verifyChecks at h
  obtain ⟨header, hheader, h⟩ := bind_eq_ok.mp h
  obtain ⟨expiry', htimes, h⟩ := bind_eq_ok.mp h
  obtain ⟨⟨⟩, hsignature, h⟩ := bind_eq_ok.mp h
  obtain ⟨⟨⟩, hparams, h⟩ := bind_eq_ok.mp h
  obtain ⟨⟨⟩, hpayload, h⟩ := bind_eq_ok.mp h
  obtain rfl := Except.ok.inj h
  exact ⟨header, headerFits_of_checks hheader, htimes, eq_of_compareDigest hsignature,
    eq_of_compareValue hparams, hpayload⟩

lemma payload_of_check (h : payloadCheck lib request operation = .ok ())
    (hasked : operation ∈ credentialedHostedOperations ∨ (get request "payload_digest").isSome) :
    ∃ payload, get request "payload" = some (.obj payload) ∧
      (get request "payload_digest").bind digestText = some (digest lib (.obj payload)) := by
  unfold payloadCheck at h
  simp only [if_pos hasked] at h
  split at h
  next payload given hpayload hgiven =>
    refine ⟨payload, hpayload, ?_⟩
    rw [hgiven]
    exact eq_of_compareValue h
  · cases h

/-! ### What a key holder signs -/

def authenticated : List String := signedFields ++ ["payload_digest"]

structure SignedAs (lib : Library) (args : SignArgs) (secret : String) (fields : Fields) (acct : ℤ) :
    Prop where
  allowed : args.operation ∈ hostedOperations
  key : secretOf args.keyring args.keyId = some secret
  account : accountFits args.operation acct = true
  payload : args.operation ∈ credentialedHostedOperations → args.payload ≠ none
  fields : fields = args.fields lib acct ++
    [("signature", .str (lib.hmac secret (canonicalBody (args.fields lib acct))))]

lemma signedAs_of_sign (h : signHostedRequest lib args = .ok fields)
    (hsecret : secretOf args.keyring args.keyId = some secret) :
    ∃ acct, SignedAs lib args secret fields acct := by
  unfold signHostedRequest at h
  split at h
  · cases h
  next hallowed =>
    rw [hsecret] at h
    split at h
    · cases h
    · cases h
    next secret' acct heq hacct =>
      obtain rfl := Option.some.inj heq
      split at h
      · cases h
      next haccount =>
        split at h
        · cases h
        next hpayload =>
          exact ⟨acct,
            { allowed := not_not.mp hallowed
              key := hsecret
              account := by simpa using haccount
              payload := fun hop hnone => hpayload ⟨hnone, hop⟩
              fields := (Except.ok.inj h).symm }⟩

lemma SignedAs.get (h : SignedAs lib args secret fields acct) (hname : name ≠ "signature") :
    get fields name = get (args.fields lib acct) name := by
  rw [h.fields, get_append_of_ne hname]

lemma SignedAs.body (h : SignedAs lib args secret fields acct) :
    canonicalBody fields = canonicalBody (args.fields lib acct) := by
  refine SignedBody.canonicalBody_congr fun name hname => h.get ?_
  rintro rfl
  revert hname
  decide

lemma SignedAs.signature (h : SignedAs lib args secret fields acct) :
    SignedBody.get fields "signature" = some (.str (lib.hmac secret (canonicalBody fields))) := by
  rw [h.body, h.fields, SignArgs.fields]
  cases args.payload <;> rfl

lemma plain_fields (lib : Library) (args : SignArgs) (acct : ℤ) :
    ∀ name ∈ authenticated, ∀ v, get (args.fields lib acct) name = some v → Plain v := by
  intro name hname v hv
  have hstr : ∀ s, Plain (.str s) := fun s => .inl ⟨s, rfl⟩
  have hint : ∀ n, Plain (.int n) := fun n => .inr ⟨n, rfl⟩
  unfold SignArgs.fields at hv
  simp only [authenticated, signedFields, List.cons_append, List.nil_append, List.mem_cons,
    List.not_mem_nil, or_false] at hname
  rcases hname with rfl | rfl | rfl | rfl | rfl | rfl | rfl | rfl | rfl | rfl
  all_goals cases hpayload : args.payload <;> rw [hpayload] at hv
  all_goals cases hv
  all_goals first | exact hint _ | exact hstr _

lemma SignedAs.plain (h : SignedAs lib args secret fields acct) :
    ∀ name ∈ authenticated, ∀ v, SignedBody.get fields name = some v → Plain v := by
  intro name hname v hv
  refine plain_fields lib args acct name hname v ?_
  rw [← h.get, hv]
  rintro rfl
  revert hname
  decide

lemma get_params_fields : get (args.fields lib acct) "params" = some (.obj (args.params.getD [])) := by
  rw [SignArgs.fields]
  cases args.payload <;> rfl

lemma get_payload_fields (lib : Library) (args : SignArgs) (acct : ℤ) :
    get (args.fields lib acct) "payload" = args.payload.map Json.obj ∧
      get (args.fields lib acct) "payload_digest" =
        args.payload.map fun payload => .str (digest lib (.obj payload)) := by
  rw [SignArgs.fields]
  cases args.payload <;> exact ⟨rfl, rfl⟩

/-! ### A request with the body of a signed one -/

/-- What a caller gets is what has been signed: the same signed fields, the same parameters, and the
payload if one was signed. -/
structure Genuine (got fields : Fields) : Prop where
  same : ∀ name ∈ signedFields, get got name = get fields name
  params : ∃ params params', get got "params" = some (.obj params) ∧
    get fields "params" = some (.obj params') ∧ (Json.obj params).canon = (Json.obj params').canon
  payload : (get fields "payload").isSome →
    (get got "payload").map Json.canon = (get fields "payload").map Json.canon

lemma get_returned (request params : Fields) : (∀ name ∈ signedFields,
      get (returned request params) name = get request name) ∧
    get (returned request params) "params" = some (.obj params) ∧
    get (returned request params) "payload" = get request "payload" := by
  refine ⟨fun name hname => ?_, ?_, ?_⟩
  · have hrest : get (("params", Json.obj params) ::
        (get request "payload").toList.map fun v => ("payload", v)) name = none := by
      have hparams : ("params" : String) ≠ name := by
        rintro rfl
        revert hname
        decide
      have hpayload : ("payload" : String) ≠ name := by
        rintro rfl
        revert hname
        decide
      cases get request "payload" <;> simp [SignedBody.get, hparams, hpayload]
    rw [returned, SignedBody.get_pick_append, if_pos hname, hrest, Option.or_none]
  · rw [returned, SignedBody.get_pick_append, if_neg (by decide)]
    rfl
  · rw [returned, SignedBody.get_pick_append, if_neg (by decide)]
    cases hpayload : get request "payload" <;> rfl

/-- A value with the canonical form of a dictionary is one. -/
lemma obj_of_canon {v : Json} {params : Fields} (h : v.canon = (Json.obj params).canon) :
    ∃ params', v = .obj params' := by
  cases v with
  | obj members => exact ⟨members, rfl⟩
  | _ => simp [Json.canon] at h

lemma canon_eq_of_digest_eq (hcollision : Function.Injective lib.sha256) {v v' : Json}
    (h : digest lib v = digest lib v') : v.canon = v'.canon :=
  Json.canon_eq_of_dumps_eq (hcollision h)

lemma genuine_of_body_eq (hcollision : Function.Injective lib.sha256) {expiry : ℤ} {header : Header}
    {params : Fields} (hsigned : SignedAs lib args secret fields acct)
    (hbody : canonicalBody fields = canonicalBody request)
    (hpasses : Passes lib keyring now maxSkewSeconds request expiry header)
    (hparams : asDict lib (orEmpty (get request "params")) = some params) :
    Genuine (returned request params) fields := by
  have hsame : ∀ name ∈ authenticated, get request name = get fields name := fun name hname =>
    fields_eq_of_body_eq hbody.symm hsigned.plain hname
  obtain ⟨hfields, hgotParams, hgotPayload⟩ := get_returned request params
  refine ⟨fun name hname => ?_, ?_, fun hpayload => ?_⟩
  · rw [hfields name hname, hsame name (List.mem_append_left _ hname)]
  · -- the digest of the parameters is a signed field
    have hdigest := hpasses.params
    rw [hsame _ (by decide), hsigned.get (by decide)] at hdigest
    have hcanon := canon_eq_of_digest_eq hcollision (Option.some.inj hdigest)
    obtain ⟨params', hobj⟩ := obj_of_canon hcanon.symm
    rw [hobj] at hparams hcanon
    obtain rfl := Option.some.inj hparams
    refine ⟨params', args.params.getD [], hgotParams, ?_, hcanon.symm⟩
    rw [hsigned.get (by decide), get_params_fields]
  · obtain ⟨hown, hownDigest⟩ := get_payload_fields lib args acct
    rw [hsigned.get (by decide), hown] at hpayload ⊢
    cases hargs : args.payload with
    | none =>
      rw [hargs] at hpayload
      cases hpayload
    | some payload' =>
      rw [hargs] at hownDigest
      have hthere : get request "payload_digest" = some (.str (digest lib (.obj payload'))) := by
        rw [hsame _ (by decide), hsigned.get (by decide), hownDigest]
        rfl
      obtain ⟨payload, hcarried, hdigest⟩ := payload_of_check hpasses.payload (.inr (by rw [hthere]; rfl))
      rw [hthere] at hdigest
      rw [hgotPayload, hcarried]
      exact congrArg some (canon_eq_of_digest_eq hcollision (Option.some.inj hdigest).symm)

/-! ### What a key holder signs passes -/

lemma payloadCheck_of_signed (hsigned : SignedAs lib args secret fields acct) :
    payloadCheck lib fields args.operation = .ok () := by
  obtain ⟨hown, hownDigest⟩ := get_payload_fields lib args acct
  rw [← hsigned.get (by decide)] at hown hownDigest
  unfold payloadCheck
  cases hargs : args.payload with
  | none =>
    rw [hargs] at hownDigest
    have hnot : ¬ (args.operation ∈ credentialedHostedOperations ∨
        (get fields "payload_digest").isSome) := by
      rintro (hop | hdigest)
      · exact hsigned.payload hop hargs
      · rw [hownDigest] at hdigest
        cases hdigest
    exact if_neg hnot
  | some payload =>
    rw [hargs] at hown hownDigest
    simp only [hown, hownDigest, Option.map_some, Option.isSome_some, or_true, if_true]
    exact compareValue_self _ (lib.sha256_hex _)

lemma verifyChecks_of_signed (hsigned : SignedAs lib args secret fields acct)
    (hkey : secretOf keyring args.keyId = some secret) (hwindow : args.ttlSeconds ≤ maxExpiryWindow)
    (hskew : |now - args.now| ≤ maxSkewSeconds) (hfresh : now ≤ args.now + args.ttlSeconds) :
    verifyChecks lib keyring now maxSkewSeconds fields = .ok (args.now + args.ttlSeconds) := by
  have hvalue : ∀ name v, name ≠ "signature" → get (args.fields lib acct) name = some v →
      get fields name = some v := fun name v hname hv => (hsigned.get hname).trans hv
  have hcomplete : ∀ name ∈ signedFields, (get fields name).isNone = false := by
    intro name hname
    rw [hsigned.get (by rintro rfl; revert hname; decide)]
    simp only [signedFields, List.mem_cons, List.not_mem_nil, or_false] at hname
    unfold SignArgs.fields
    rcases hname with rfl | rfl | rfl | rfl | rfl | rfl | rfl | rfl | rfl
    all_goals cases args.payload <;> rfl
  have hheader : headerChecks keyring fields = .ok
      { operation := args.operation, secret, signature := lib.hmac secret (canonicalBody fields) } := by
    refine headerChecks_of_fits ?_
    exact
      { version := by
          rw [hvalue "protocol_version" (.int hostedProtocolVersion) (by decide) rfl]
          rfl
        hasOperation := hvalue "operation" (.str args.operation) (by decide) rfl
        allowed := hsigned.allowed
        complete := by
          rw [List.any_eq_true]
          rintro ⟨name, hname, hnone⟩
          rw [hcomplete name hname] at hnone
          cases hnone
        hasSignature := hsigned.signature
        nonempty := lib.hmac_ne _ _
        key := ⟨args.keyId, hvalue "key_id" (.str args.keyId) (by decide) rfl, hkey⟩
        account := ⟨acct, by rw [hvalue "account_id" (.int acct) (by decide) rfl]; rfl,
          hsigned.account⟩ }
  have htimes : timeChecks now maxSkewSeconds fields = .ok (args.now + args.ttlSeconds) := by
    rw [timeChecks, hvalue "timestamp" (.int args.now) (by decide) rfl,
      hvalue "expiry" (.int (args.now + args.ttlSeconds)) (by decide) rfl]
    simp only [Option.bind_some, asInt]
    rw [if_neg (not_lt.mpr hskew), if_neg (not_lt.mpr hfresh), if_neg (by omega)]
  have hparams : orEmpty (get fields "params") = .obj (args.params.getD []) := by
    rw [hvalue "params" _ (by decide) get_params_fields]
    cases args.params.getD [] <;> rfl
  have hdigest := hvalue "params_digest"
    (.str (digest lib (.obj (args.params.getD [])))) (by decide) rfl
  rw [verifyChecks, hheader, htimes, hparams, hdigest]
  refine bind_eq_ok.mpr ⟨_, rfl, bind_eq_ok.mpr ⟨_, rfl, bind_eq_ok.mpr ⟨(), ?_, ?_⟩⟩⟩
  · exact compareDigest_self _ (lib.hmac_hex _ _)
  refine bind_eq_ok.mpr ⟨(), compareValue_self _ (lib.sha256_hex _), ?_⟩
  exact bind_eq_ok.mpr ⟨(), payloadCheck_of_signed hsigned, rfl⟩

/-! ### The conditions -/

def HolderSigned (s : State) (secret : String) (text : List Char) : Prop :=
  (∃ m ∈ s.signed, m.secret = secret ∧ canonicalBody m.fields = text) ∨ (secret, text) ∈ s.answered

/-- A signature of the request that is right for its body stems from a holder of the key. -/
def SignedByHolder (lib : Library) (keyring : List (String × String)) (s : State) (request : Fields) :
    Prop :=
  ∀ keyId ∈ strOf (get request "key_id"), ∀ secret ∈ secretOf keyring keyId,
    ∀ signature ∈ strOf (get request "signature"),
      lib.hmac secret (canonicalBody request) = signature →
        HolderSigned s secret (canonicalBody request)

/-- Nobody forges. -/
def Unforgeable (lib : Library) (keyring : List (String × String)) (s : State) : Action → Prop
  | .verify _ _ (.obj request) => SignedByHolder lib keyring s request
  | _ => True

/-! ### The invariant -/

def Vouched (_lib : Library) (keyring : List (String × String)) (signed : List Signed) (got : Fields) :
    Prop :=
  ∃ m ∈ signed, secretOf keyring m.args.keyId = some m.secret ∧ Genuine got m.fields

structure Inv (lib : Library) (keyring : List (String × String)) (s : State) : Prop where
  signed : ∀ m ∈ s.signed, signHostedRequest lib m.args = .ok m.fields ∧
    secretOf m.args.keyring m.args.keyId = some m.secret
  answered : ∀ e ∈ s.answered, ∃ v, e.2 = (digest lib v).toList
  accepted : ∀ got ∈ s.accepted, Vouched lib keyring s.signed got
  nonces : s.nonces.map some = s.accepted.map fun got => (get got "nonce").map Json.dumps
  single : s.nonces.Nodup

lemma inv_initial : Inv lib keyring .initial :=
  ⟨by simp [State.initial], by simp [State.initial], by simp [State.initial], rfl, List.nodup_nil⟩

lemma canonicalBody_ne_digest (v : Json) : canonicalBody fields ≠ (digest lib v).toList := by
  intro h
  obtain ⟨text, htext⟩ := canonicalBody_head signedFields "payload_digest" fields
  have hbrace : '{' ∈ (digest lib v).toList := by
    rw [← h, canonicalBody, htext]
    exact List.mem_cons_self
  have hhex := lib.sha256_hex _ _ hbrace
  revert hhex
  decide

lemma signed_of_passes (hs : Inv lib keyring s) {expiry : ℤ} {header : Header}
    (hunforgeable : Unforgeable lib keyring s (.verify now maxSkewSeconds (.obj request)))
    (hpasses : Passes lib keyring now maxSkewSeconds request expiry header) :
    ∃ m ∈ s.signed, ∃ acct, SignedAs lib m.args m.secret m.fields acct ∧
      secretOf keyring m.args.keyId = some m.secret ∧
      canonicalBody m.fields = canonicalBody request := by
  obtain ⟨keyId, hkeyId, hsecret⟩ := hpasses.fits.key
  rcases hunforgeable keyId (by rw [hkeyId]; rfl) header.secret hsecret header.signature
      (by rw [hpasses.fits.hasSignature]; rfl) hpasses.authentic with
    ⟨m, hm, hown, hbody⟩ | hanswer
  · obtain ⟨acct, hsigned⟩ := signedAs_of_sign (hs.signed m hm).1 (hs.signed m hm).2
    refine ⟨m, hm, acct, hsigned, ?_, hbody⟩
    -- the key is one of the signed fields
    have hsame : get request "key_id" = get m.fields "key_id" :=
      fields_eq_of_body_eq hbody.symm hsigned.plain (by decide)
    rw [hkeyId, hsigned.get (by decide)] at hsame
    have hid : .str keyId = Json.str m.args.keyId := Option.some.inj hsame
    rw [← Json.str.inj hid, hown]
    exact hsecret
  · obtain ⟨v, hv⟩ := hs.answered _ hanswer
    exact absurd hv (canonicalBody_ne_digest v)

/-! ### The steps -/

/-- What a verification does: a request that is refused leaves the store, and one that is accepted was
signed and has a new nonce. -/
lemma verify_cases (hcollision : Function.Injective lib.sha256) (hs : Inv lib keyring s) {v : Json}
    (hunforgeable : Unforgeable lib keyring s (.verify now maxSkewSeconds v)) :
    (∃ refusal, verifyHostedRequest lib keyring now maxSkewSeconds s.nonces v = (.error refusal, s.nonces)) ∨
    ∃ got nonce, verifyHostedRequest lib keyring now maxSkewSeconds s.nonces v
        = (.ok got, Json.dumps nonce :: s.nonces) ∧
      get got "nonce" = some nonce ∧ Json.dumps nonce ∉ s.nonces ∧ Vouched lib keyring s.signed got := by
  cases v with
  | obj request =>
    simp only [verifyHostedRequest]
    cases hchecks : verifyChecks lib keyring now maxSkewSeconds request with
    | error refusal => exact .inl ⟨refusal, rfl⟩
    | ok expiry =>
      obtain ⟨header, hpasses⟩ := passes_of_verifyChecks hchecks
      obtain ⟨m, hm, acct, hsigned, hkey, hbody⟩ := signed_of_passes hs hunforgeable hpasses
      cases hnonce : get request "nonce" with
      | none => exact .inl ⟨.missingField, rfl⟩
      | some nonce =>
        by_cases hused : Json.dumps nonce ∈ s.nonces
        · left
          simp only [burn, if_pos hused]
          exact ⟨.nonceReplayed, rfl⟩
        · right
          -- the parameters have the digest of a dictionary
          have hdigest := hpasses.params
          have hsame : get request "params_digest" = get m.fields "params_digest" :=
            fields_eq_of_body_eq hbody.symm hsigned.plain (by decide)
          rw [hsame, hsigned.get (by decide)] at hdigest
          obtain ⟨params, hobj⟩ :=
            obj_of_canon (canon_eq_of_digest_eq hcollision (Option.some.inj hdigest)).symm
          have hparams : asDict lib (orEmpty (get request "params")) = some params := by
            rw [hobj]
            rfl
          simp only [burn, if_neg hused, hparams]
          refine ⟨returned request params, nonce, rfl, ?_, hused, m, hm, hkey, ?_⟩
          · rw [(get_returned request params).1 "nonce" (by decide), hnonce]
          · exact genuine_of_body_eq hcollision hsigned hbody hpasses hparams
  | _ => exact .inl ⟨.malformedRequest, rfl⟩

lemma inv_step (hcollision : Function.Injective lib.sha256) (hs : Inv lib keyring s)
    (ha : Unforgeable lib keyring s a) : Inv lib keyring (step lib keyring s a) := by
  cases a with
  | sign args =>
    simp only [step]
    split
    next fields secret hok hsecret =>
      refine ⟨fun m hm => ?_, hs.answered, fun got hgot => ?_, hs.nonces, hs.single⟩
      · rcases List.mem_cons.mp hm with rfl | hm
        · exact ⟨hok, hsecret⟩
        · exact hs.signed m hm
      · obtain ⟨m, hm, h⟩ := hs.accepted got hgot
        exact ⟨m, List.mem_cons_of_mem _ hm, h⟩
    · exact hs
  | respond keys keyId correlationId nonce result =>
    simp only [step]
    split
    · refine ⟨hs.signed, fun e he => ?_, hs.accepted, hs.nonces, hs.single⟩
      rcases List.mem_cons.mp he with rfl | he
      · exact ⟨_, rfl⟩
      · exact hs.answered e he
    · exact hs
  | verify now maxSkewSeconds v =>
    rcases verify_cases hcollision hs ha with ⟨refusal, heq⟩ | ⟨got, nonce, heq, hnonce, hnew, hvouched⟩
    · simp only [step, heq]
      exact hs
    · simp only [step, heq]
      refine ⟨hs.signed, hs.answered, fun got' hgot => ?_, ?_, List.nodup_cons.mpr ⟨hnew, hs.single⟩⟩
      · rcases List.mem_cons.mp hgot with rfl | hgot
        · exact hvouched
        · exact hs.accepted got' hgot
      · simp [hnonce, hs.nonces]

lemma inv_run (hcollision : Function.Injective lib.sha256) {as : List Action}
    (has : StepsMeet (step lib keyring) (Unforgeable lib keyring) .initial as) :
    Inv lib keyring (run (step lib keyring) .initial as) :=
  run_invariant_of_meets (fun _ _ hs ha => inv_step hcollision hs ha) inv_initial has

/-! ### The host accepts what is signed -/

/-- What the protocol guarantees after a run of the key holders and a host. -/
structure Authentic (lib : Library) (keyring : List (String × String)) (as : List Action) : Prop where
  /-- What is accepted is what a key holder has signed. -/
  genuine : ∀ got ∈ (run (step lib keyring) .initial as).accepted,
    ∃ m ∈ (run (step lib keyring) .initial as).signed, signHostedRequest lib m.args = .ok m.fields ∧
      secretOf keyring m.args.keyId = some m.secret ∧ Genuine got m.fields
  /-- A nonce is accepted once. -/
  once : ((run (step lib keyring) .initial as).accepted.map fun got => get got "nonce").Nodup
  /-- A request that is refused burns no nonce. -/
  unburned : ∀ now maxSkewSeconds v refusal nonces,
    Unforgeable lib keyring (run (step lib keyring) .initial as) (.verify now maxSkewSeconds v) →
    verifyHostedRequest lib keyring now maxSkewSeconds (run (step lib keyring) .initial as).nonces v
      = (.error refusal, nonces) → nonces = (run (step lib keyring) .initial as).nonces
  /-- What a key holder has signed with an allowed window is accepted while it is fresh, if its nonce is
  new. -/
  admitted : ∀ m ∈ (run (step lib keyring) .initial as).signed, ∀ now maxSkewSeconds,
    secretOf keyring m.args.keyId = some m.secret → m.args.ttlSeconds ≤ maxExpiryWindow →
    |now - m.args.now| ≤ maxSkewSeconds → now ≤ m.args.now + m.args.ttlSeconds →
    Json.dumps (.str m.args.usedNonce) ∉ (run (step lib keyring) .initial as).nonces →
    verifyHostedRequest lib keyring now maxSkewSeconds (run (step lib keyring) .initial as).nonces
        (.obj m.fields)
      = (.ok (returned m.fields (m.args.params.getD [])),
        Json.dumps (.str m.args.usedNonce) :: (run (step lib keyring) .initial as).nonces)

/-- **The protocol is authentic in every run in which nobody forges.** -/
theorem hostedAuthentic (lib : Library) (keyring : List (String × String)) (as : List Action)
    (hcollision : Function.Injective lib.sha256)
    (hunforgeable : StepsMeet (step lib keyring) (Unforgeable lib keyring) .initial as) :
    Authentic lib keyring as := by
  have hs := inv_run hcollision hunforgeable
  refine ⟨fun got hgot => ?_, ?_, ?_, ?_⟩
  · obtain ⟨m, hm, hkey, hgenuine⟩ := hs.accepted got hgot
    exact ⟨m, hm, (hs.signed m hm).1, hkey, hgenuine⟩
  · refine List.Nodup.of_map (Option.map Json.dumps) ?_
    rw [List.map_map]
    have hnonces := hs.nonces
    simp only [Function.comp_def] at hnonces ⊢
    rw [← hnonces]
    exact hs.single.map (Option.some_injective _)
  · intro now maxSkewSeconds v refusal nonces hforge heq
    rcases verify_cases hcollision hs hforge with ⟨_, hkeeps⟩ | ⟨_, _, haccepts, -⟩
    · rw [hkeeps] at heq
      exact (Prod.mk.inj heq).2.symm
    · rw [haccepts] at heq
      cases (Prod.mk.inj heq).1
  · intro m hm now maxSkewSeconds hkey hwindow hskew hfresh hnew
    obtain ⟨acct, hsigned⟩ := signedAs_of_sign (hs.signed m hm).1 (hs.signed m hm).2
    have hchecks := verifyChecks_of_signed hsigned hkey hwindow hskew hfresh
    have hnonce : get m.fields "nonce" = some (.str m.args.usedNonce) := by
      rw [hsigned.get (by decide)]
      rfl
    have hparams : asDict lib (orEmpty (get m.fields "params")) = some (m.args.params.getD []) := by
      rw [hsigned.get (by decide), get_params_fields]
      cases m.args.params.getD [] <;> rfl
    simp only [verifyHostedRequest, hchecks, hnonce, burn, if_neg hnew, hparams]

/-! ### Runs -/

/-- A text in hexadecimal digits, six for each character. -/
def hexText (text : List Char) : String :=
  String.ofList (text.flatMap fun c => [5, 4, 3, 2, 1, 0].map fun i => Json.hexDigit (c.toNat / 16 ^ i % 16))

lemma hexText_hex (text : List Char) : ∀ c ∈ (hexText text).toList, c ∈ "0123456789abcdef".toList := by
  have hdigit : ∀ d < 16, Json.hexDigit d ∈ "0123456789abcdef".toList := by decide
  intro c hc
  rw [hexText, String.toList_ofList, List.mem_flatMap] at hc
  obtain ⟨c', -, hc⟩ := hc
  obtain ⟨i, -, rfl⟩ := List.mem_map.mp hc
  exact hdigit _ (Nat.mod_lt _ (by decide))

lemma digits_injective {c c' : Char}
    (h : ([5, 4, 3, 2, 1, 0].map fun i => Json.hexDigit (c.toNat / 16 ^ i % 16))
      = [5, 4, 3, 2, 1, 0].map fun i => Json.hexDigit (c'.toNat / 16 ^ i % 16)) : c = c' := by
  have hdigit : ∀ m n : ℕ, Json.hexDigit (m % 16) = Json.hexDigit (n % 16) → m % 16 = n % 16 := by
    intro m n h
    have hval := congrArg Json.hexVal h
    rwa [Json.hexVal_hexDigit _ (Nat.mod_lt _ (by decide)),
      Json.hexVal_hexDigit _ (Nat.mod_lt _ (by decide))] at hval
  simp only [List.map_cons, List.map_nil, List.cons.injEq, and_true] at h
  obtain ⟨h5, h4, h3, h2, h1, h0⟩ := h
  have hd5 := hdigit _ _ h5
  have hd4 := hdigit _ _ h4
  have hd3 := hdigit _ _ h3
  have hd2 := hdigit _ _ h2
  have hd1 := hdigit _ _ h1
  have hd0 := hdigit _ _ h0
  have hbound : ∀ c : Char, c.toNat < 16 ^ 6 := by
    intro c
    have hvalid : c.toNat < 0xd800 ∨ 0xdfff < c.toNat ∧ c.toNat < 0x110000 := c.valid
    omega
  have hlt := hbound c
  have hlt' := hbound c'
  refine Char.toNat_inj.mp ?_
  omega

lemma hexText_injective : Function.Injective hexText := by
  intro text text' h
  have hlist := congrArg String.toList h
  simp only [hexText, String.toList_ofList] at hlist
  clear h
  induction text generalizing text' with
  | nil =>
    cases text' with
    | nil => rfl
    | cons c' text' => cases hlist
  | cons c text ih =>
    cases text' with
    | nil => cases hlist
    | cons c' text' =>
      rw [List.flatMap_cons, List.flatMap_cons] at hlist
      obtain ⟨hfirst, hrest⟩ := List.append_inj hlist (by simp)
      rw [digits_injective hfirst, ih hrest]

/-- A keyed hash that is a sum of its characters, and a digest that shows its text. -/
def openLibrary : Library where
  hmac secret text := hexText [Char.ofNat ((secret.toList ++ text).map Char.toNat).sum]
  sha256 text := hexText text
  hmac_ne secret text := by
    intro h
    have hlist := congrArg String.toList h
    rw [hexText, String.toList_ofList] at hlist
    cases hlist
  dictOf _ := none
  hmac_hex _ _ := hexText_hex _
  sha256_hex _ := hexText_hex _

/-- A check of the slot of an account. -/
def sampleArgs (nonce : String) (ttlSeconds : ℤ) : SignArgs where
  accountId := some 7
  operation := "VERIFY_SLOT"
  correlationId := "c7"
  keyring := [("k1", "secret")]
  keyId := "k1"
  now := 1000
  ttlSeconds := ttlSeconds
  token := nonce

def requestOf (args : SignArgs) : Fields :=
  match signHostedRequest openLibrary args with
  | .ok fields => fields
  | .error _ => []

instance (s : State) (secret : String) (text : List Char) : Decidable (HolderSigned s secret text) := by
  unfold HolderSigned
  infer_instance

instance (lib : Library) (keyring : List (String × String)) (s : State) (request : Fields) :
    Decidable (SignedByHolder lib keyring s request) := by
  unfold SignedByHolder
  infer_instance

instance (lib : Library) (keyring : List (String × String)) (s : State) (a : Action) :
    Decidable (Unforgeable lib keyring s a) :=
  match a with
  | .verify _ _ (.obj request) => inferInstanceAs (Decidable (SignedByHolder lib keyring s request))
  | .verify _ _ .null | .verify _ _ (.bool _) | .verify _ _ (.int _) | .verify _ _ (.float _)
  | .verify _ _ (.str _) | .verify _ _ (.arr _) | .sign _ | .respond _ _ _ _ _ => .isTrue trivial

/-- Why a verification has failed. -/
def refusalOf : Except Refusal Fields → Option Refusal
  | .ok _ => none
  | .error refusal => some refusal

/-- A request is accepted, and a copy of it is refused. -/
def replayedRun : List Action :=
  let args := sampleArgs "n1" 20
  [.sign args, .verify 1010 30 (.obj (requestOf args)), .verify 1010 30 (.obj (requestOf args))]

theorem hostedAuthentic_replayedRun :
    ((run (step openLibrary [("k1", "secret")]) .initial replayedRun).accepted.length = 1) ∧
      Authentic openLibrary [("k1", "secret")] replayedRun :=
  have hrun : _ ∧ StepsMeet (step openLibrary [("k1", "secret")])
      (Unforgeable openLibrary [("k1", "secret")]) .initial replayedRun := by decide +kernel
  ⟨hrun.1, hostedAuthentic openLibrary [("k1", "secret")] replayedRun hexText_injective hrun.2⟩

/-- A payload is put beside a request that was signed without one, and a request is signed for longer
than the host allows. -/
def brokenRun : List Action :=
  [.sign (sampleArgs "n1" 20),
    .verify 1010 30 (.obj (requestOf (sampleArgs "n1" 20) ++ [("payload", .obj [("env", .str "x")])])),
    .sign (sampleArgs "n2" 700), .verify 1010 30 (.obj (requestOf (sampleArgs "n2" 700)))]

/-- A caller gets a payload that nobody has signed, and a fresh request with a new nonce is refused for
its window; nobody has forged. -/
theorem hostedAuthentic_broken :
    StepsMeet (step openLibrary [("k1", "secret")]) (Unforgeable openLibrary [("k1", "secret")]) .initial
        brokenRun ∧
      (∃ got ∈ (run (step openLibrary [("k1", "secret")]) .initial brokenRun).accepted,
        (get got "payload").isSome ∧
          ∀ m ∈ (run (step openLibrary [("k1", "secret")]) .initial brokenRun).signed,
            (get m.fields "payload").isNone) ∧
      refusalOf (verifyHostedRequest openLibrary [("k1", "secret")] 1010 30 []
        (.obj (requestOf (sampleArgs "n2" 700)))).1 = some .expiryTooFar :=
  by decide +kernel

end HostProtocol
end GuvFX
