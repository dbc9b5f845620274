/-
# What the agent accepts

The canonical body determines the signed fields, so a signature under a body stands for the fields.
With a keyed hash that nobody forges and a digest without collisions, the agent accepts what key
holders have signed and nothing else, and it accepts everything that they sign with a lifetime that it
allows.  A nonce is burned after the checks only.

That a nonce is accepted once rests on two more things: the key holders do not use it twice, and no
purge passes the expiry of a request between its checks and its nonce.
-/
import GuvFX.BetaAgent.Protocol
import GuvFX.Lib.SignedBody

namespace GuvFX
namespace Protocol

open Runs

variable {crypto : Crypto} {cfg : Config} {s : State} {a : Action} {id : ℕ} {now : ℤ}
  {request fields fields' : Fields} {checked : Checked} {args : SignArgs} {name : String}

/-! ### The body determines the fields -/

lemma get_append_of_ne {v : Json} {other : String} (h : name ≠ other) :
    get (fields ++ [(other, v)]) name = get fields name := SignedBody.get_append_of_ne h

def authenticated : List String := signedFields ++ ["payload_digest"]

/-- A text or an integer. -/
def Plain (v : Json) : Prop := (∃ s, v = .str s) ∨ ∃ n, v = .int n

lemma fields_eq_of_body_eq (h : canonicalBody fields = canonicalBody fields')
    (hplain : ∀ name ∈ authenticated, ∀ v, get fields' name = some v → Plain v)
    (hname : name ∈ authenticated) : get fields name = get fields' name :=
  SignedBody.fields_eq_of_body_eq h hplain hname

/-! ### What a key holder signs -/

lemma signature_not_authenticated : ∀ name ∈ authenticated, name ≠ "signature" := by decide

lemma canonicalBody_congr (h : ∀ name ∈ authenticated, get fields name = get fields' name) :
    canonicalBody fields = canonicalBody fields' := SignedBody.canonicalBody_congr h

structure SignedAs (crypto : Crypto) (args : SignArgs) (secret : String) (fields : Fields) : Prop where
  allowed : args.operation ∈ allowedOperations
  key : secretOf args.keyring args.keyId = some secret
  payload : args.operation ∈ credentialedOperations → args.payload ≠ none
  fields : fields = args.fields crypto ++
    [("signature", .str (crypto.hmac secret (canonicalBody (args.fields crypto))))]

lemma signedAs_of_signRequest {secret : String} (h : signRequest crypto args = .ok fields)
    (hsecret : secretOf args.keyring args.keyId = some secret) :
    SignedAs crypto args secret fields := by
  unfold signRequest at h
  split at h
  · cases h
  rename_i hallowed
  rw [hsecret] at h
  dsimp only at h
  split at h
  · cases h
  rename_i hpayload
  refine ⟨not_not.mp hallowed, hsecret, fun hop hnone => hpayload ⟨hnone, hop⟩, ?_⟩
  exact (Except.ok.inj h).symm

variable {secret : String}

lemma SignedAs.get (h : SignedAs crypto args secret fields) (hname : name ∈ authenticated) :
    Protocol.get fields name = Protocol.get (args.fields crypto) name := by
  rw [h.fields, get_append_of_ne (signature_not_authenticated name hname)]

lemma SignedAs.body (h : SignedAs crypto args secret fields) :
    canonicalBody fields = canonicalBody (args.fields crypto) :=
  canonicalBody_congr fun _ hname => h.get hname

lemma SignedAs.signature (h : SignedAs crypto args secret fields) :
    Protocol.get fields "signature" = some (.str (crypto.hmac secret (canonicalBody fields))) := by
  rw [h.body, h.fields, SignArgs.fields]
  cases args.payload <;> rfl

lemma plain_fields : ∀ name ∈ authenticated, ∀ v, get (args.fields crypto) name = some v → Plain v := by
  intro name hname v hv
  have hstr : ∀ s, Plain (.str s) := fun s => .inl ⟨s, rfl⟩
  have hint : ∀ n, Plain (.int n) := fun n => .inr ⟨n, rfl⟩
  unfold SignArgs.fields at hv
  simp only [authenticated, signedFields, List.cons_append, List.nil_append, List.mem_cons,
    List.not_mem_nil, or_false] at hname
  rcases hname with rfl | rfl | rfl | rfl | rfl | rfl | rfl | rfl | rfl | rfl
  all_goals cases hpayload : args.payload <;> rw [hpayload] at hv
  all_goals cases hv
  all_goals first | exact hint _ | exact hstr _

/-! ### What passes the checks -/

structure Passes (crypto : Crypto) (cfg : Config) (now : ℤ) (request : Fields)
    (operation keyId secret signature : String) (ts exp : ℤ) : Prop where
  version : (get request "protocol_version").any isOne
  hasOperation : get request "operation" = some (.str operation)
  allowed : operation ∈ allowedOperations
  complete : ¬ signedFields.any fun name => (get request name).isNone
  hasSignature : get request "signature" = some (.str signature)
  nonempty : signature ≠ ""
  hasKeyId : get request "key_id" = some (.str keyId)
  key : secretOf cfg.keyring keyId = some secret
  timestamp : (get request "timestamp").bind asInt = some ts
  expiry : (get request "expiry").bind asInt = some exp
  skew : |now - ts| ≤ cfg.maxSkewSeconds
  fresh : now ≤ exp
  lifetime : exp - ts ≤ maxLifetime
  authentic : crypto.hmac secret (canonicalBody request) = signature
  payload : payloadCheck crypto request operation = none

lemma passes_of_verifyFields (h : verifyFields crypto cfg now request = .ok checked) :
    checked.request = request ∧ get request "nonce" = some checked.nonce ∧
      ∃ operation keyId secret signature ts,
        Passes crypto cfg now request operation keyId secret signature ts checked.expiry := by
  unfold verifyFields at h
  split at h
  · cases h
  rename_i hversion
  split at h
  case h_2 => cases h
  rename_i operation hoperation
  split at h
  · cases h
  rename_i hallowed
  split at h
  · cases h
  rename_i hcomplete
  split at h
  case h_2 => cases h
  rename_i signature hsignature
  split at h
  · cases h
  rename_i hnonempty
  split at h
  case h_2 => cases h
  case h_3 => cases h
  case h_4 => cases h
  rename_i keyId hkeyId
  split at h
  · cases h
  rename_i secret hsecret
  split at h
  case h_2 => cases h
  rename_i ts exp hts hexp
  split at h
  · cases h
  rename_i hskew
  split at h
  · cases h
  rename_i hfresh
  split at h
  · cases h
  rename_i hlifetime
  split at h
  · cases h
  rename_i hauthentic
  split at h
  · cases h
  rename_i hpayload
  split at h
  case h_2 => cases h
  rename_i nonce hnonce
  obtain rfl := Except.ok.inj h
  refine ⟨rfl, hnonce, operation, keyId, secret, signature, ts, ?_⟩
  exact
    { version := not_not.mp hversion
      hasOperation := hoperation
      allowed := not_not.mp hallowed
      complete := hcomplete
      hasSignature := hsignature
      nonempty := hnonempty
      hasKeyId := hkeyId
      key := hsecret
      timestamp := hts
      expiry := hexp
      skew := not_lt.mp hskew
      fresh := not_lt.mp hfresh
      lifetime := not_lt.mp hlifetime
      authentic := not_not.mp hauthentic
      payload := hpayload }

lemma verifyFields_of_passes {operation keyId secret signature : String} {ts exp : ℤ} {nonce : Json}
    (h : Passes crypto cfg now request operation keyId secret signature ts exp)
    (hnonce : get request "nonce" = some nonce) :
    verifyFields crypto cfg now request = .ok ⟨request, nonce, exp⟩ := by
  rw [verifyFields, if_neg (not_not.mpr h.version), h.hasOperation]
  simp only [if_neg (not_not.mpr h.allowed), if_neg h.complete, h.hasSignature, if_neg h.nonempty,
    h.hasKeyId, h.key, h.timestamp, h.expiry, if_neg (not_lt.mpr h.skew), if_neg (not_lt.mpr h.fresh),
    if_neg (not_lt.mpr h.lifetime), if_neg (not_not.mpr h.authentic), h.payload, hnonce]

lemma payload_of_check {operation : String} (h : payloadCheck crypto request operation = none)
    (hasked : operation ∈ credentialedOperations ∨ (get request "payload_digest").isSome) :
    ∃ payload digest, get request "payload" = some (.obj payload) ∧
      get request "payload_digest" = some digest ∧
      digestText digest = some (payloadDigestOf crypto (.obj payload)) := by
  unfold payloadCheck at h
  simp only [if_pos hasked] at h
  split at h
  · rename_i payload digest hpayload hdigest
    split at h
    · rename_i hsame
      exact ⟨payload, digest, hpayload, hdigest, hsame⟩
    · cases h
  · cases h

/-! ### A request with the body of a signed one -/

/-- The request carries what has been signed: the same authenticated fields and, where a digest is
carried or the operation is credentialed, the same payload. -/
structure Matches (request fields : Fields) : Prop where
  same : ∀ name ∈ authenticated, get request name = get fields name
  payload : ∀ operation, get request "operation" = some (.str operation) →
    operation ∈ credentialedOperations ∨ (get request "payload_digest").isSome →
    ∃ payload payload', get request "payload" = some payload ∧
      get fields "payload" = some payload' ∧ payload.canon = payload'.canon

lemma get_payload_fields (crypto : Crypto) {payload : Fields} (h : args.payload = some payload) :
    get (args.fields crypto) "payload_digest" =
        some (.str (payloadDigestOf crypto (.obj payload))) ∧
      get (args.fields crypto) "payload" = some (.obj payload) := by
  rw [SignArgs.fields, h]
  exact ⟨rfl, rfl⟩

lemma get_payload_none (h : args.payload = none) :
    get (args.fields crypto) "payload_digest" = none := by
  rw [SignArgs.fields, h]
  rfl

lemma matches_of_body_eq (hcollision : Function.Injective crypto.sha256) {operation : String}
    (hsigned : SignedAs crypto args secret fields)
    (hbody : canonicalBody fields = canonicalBody request)
    (hoperation : get request "operation" = some (.str operation))
    (hcheck : payloadCheck crypto request operation = none) : Matches request fields := by
  have hplain : ∀ name ∈ authenticated, ∀ v, get fields name = some v → Plain v := by
    intro name hname v hv
    exact plain_fields name hname v ((hsigned.get hname).symm.trans hv)
  have hfields : ∀ name ∈ authenticated, get request name = get fields name := fun name hname =>
    fields_eq_of_body_eq hbody.symm hplain hname
  refine ⟨hfields, fun operation' hoperation' hasked => ?_⟩
  obtain rfl : operation = operation' :=
    Json.str.inj (Option.some.inj (hoperation.symm.trans hoperation'))
  obtain ⟨payload, digest, hpayload, hdigest, hsame⟩ := payload_of_check hcheck hasked
  have hdigest' : get (args.fields crypto) "payload_digest" = some digest := by
    rw [← hsigned.get (by decide), ← hfields _ (by decide), hdigest]
  cases hargs : args.payload with
  | none =>
    rw [get_payload_none hargs] at hdigest'
    cases hdigest'
  | some payload' =>
    obtain ⟨hown, hcarried⟩ := get_payload_fields crypto hargs
    obtain rfl : .str (payloadDigestOf crypto (.obj payload')) = digest :=
      Option.some.inj (hown.symm.trans hdigest')
    have hsha : payloadDigestOf crypto (.obj payload') = payloadDigestOf crypto (.obj payload) :=
      Option.some.inj hsame
    refine ⟨.obj payload, .obj payload', hpayload, ?_, ?_⟩
    · rw [hsigned.fields, get_append_of_ne (by decide), hcarried]
    · exact (Json.canon_eq_of_dumps_eq (hcollision hsha)).symm

/-! ### What a key holder signs passes -/

lemma verifyFields_of_signed (hsigned : SignedAs crypto args secret fields)
    (hkey : secretOf cfg.keyring args.keyId = some secret) (hlifetime : args.ttlSeconds ≤ maxLifetime)
    (hskew : |now - args.now| ≤ cfg.maxSkewSeconds) (hfresh : now ≤ args.now + args.ttlSeconds) :
    verifyFields crypto cfg now fields =
      .ok ⟨fields, .str args.usedNonce, args.now + args.ttlSeconds⟩ := by
  have hget : ∀ name ∈ authenticated, get fields name = get (args.fields crypto) name :=
    fun name hname => hsigned.get hname
  have hcomplete : ∀ name ∈ signedFields, (get (args.fields crypto) name).isNone = false := by
    intro name hname
    simp only [signedFields, List.mem_cons, List.not_mem_nil, or_false] at hname
    unfold SignArgs.fields
    rcases hname with rfl | rfl | rfl | rfl | rfl | rfl | rfl | rfl | rfl
    all_goals cases args.payload <;> rfl
  have hvalue : ∀ name v, name ∈ authenticated → get (args.fields crypto) name = some v →
      get fields name = some v := fun name v hname hv => (hget name hname).trans hv
  suffices hpasses : Passes crypto cfg now fields args.operation args.keyId secret
      (crypto.hmac secret (canonicalBody fields)) args.now (args.now + args.ttlSeconds) from
    verifyFields_of_passes hpasses (hvalue "nonce" (.str args.usedNonce) (by decide) rfl)
  · refine
      { version := by rw [hvalue "protocol_version" (.int protocolVersion) (by decide) rfl]; rfl
        hasOperation := hvalue "operation" (.str args.operation) (by decide) rfl
        allowed := hsigned.allowed
        complete := by
          rw [List.any_eq_true]
          rintro ⟨name, hname, hnone⟩
          rw [hget name (List.mem_append_left _ hname), hcomplete name hname] at hnone
          cases hnone
        hasSignature := hsigned.signature
        nonempty := crypto.hmac_ne _ _
        hasKeyId := hvalue "key_id" (.str args.keyId) (by decide) rfl
        key := hkey
        timestamp := by rw [hvalue "timestamp" (.int args.now) (by decide) rfl]; rfl
        expiry := by rw [hvalue "expiry" (.int (args.now + args.ttlSeconds)) (by decide) rfl]; rfl
        skew := hskew
        fresh := hfresh
        lifetime := by omega
        authentic := rfl
        payload := ?_ }
    cases hargs : args.payload with
    | none =>
      have hnot : ¬ (args.operation ∈ credentialedOperations ∨
          (get fields "payload_digest").isSome) := by
        rintro (hop | hdigest)
        · exact hsigned.payload hop hargs
        · rw [hget _ (by decide), get_payload_none hargs] at hdigest
          cases hdigest
      exact if_neg hnot
    | some payload =>
      obtain ⟨hdigest, hpayload⟩ := get_payload_fields crypto hargs
      have hdigest' := hvalue "payload_digest" _ (by decide) hdigest
      have hpayload' : get fields "payload" = some (.obj payload) := by
        rw [hsigned.fields, get_append_of_ne (by decide), hpayload]
      unfold payloadCheck
      simp only [hdigest', hpayload', Option.isSome_some, or_true, if_true, digestText]

/-! ### The conditions -/

/-- The text of a value that is one. -/
def strOf : Option Json → Option String
  | some (.str s) => some s
  | _ => none

/-- Nobody forges: a signature that is right for a body is there because a holder of the key has signed
that body. -/
def Unforgeable (crypto : Crypto) (cfg : Config) (s : State) : Action → Prop
  | .verify _ (.obj request) =>
    ∀ keyId ∈ strOf (get request "key_id"), ∀ secret ∈ secretOf cfg.keyring keyId,
      ∀ signature ∈ strOf (get request "signature"),
        crypto.hmac secret (canonicalBody request) = signature →
          ∃ m ∈ s.signed, m.secret = secret ∧ canonicalBody m.fields = canonicalBody request
  | _ => True

/-- A key holder uses no nonce twice, and a request whose nonce is burned has not been overtaken by a
purge beyond its expiry. -/
def Single (s : State) : Action → Prop
  | .sign args => ∀ m ∈ s.signed, m.args.usedNonce ≠ args.usedNonce
  | .burn id =>
    match s.verifications id with
    | some (.burning checked) => ∀ p ∈ s.purgedTo, p ≤ checked.expiry
    | _ => True
  | _ => True

/-! ### The invariant -/

/-- The request has passed the checks, and carries the body of a signed one. -/
structure Vouched (crypto : Crypto) (cfg : Config) (clock : ℤ) (signed : List Signed)
    (checked : Checked) : Prop where
  passed : ∃ now ≤ clock, verifyFields crypto cfg now checked.request = .ok checked
  signed : ∃ m ∈ signed, canonicalBody m.fields = canonicalBody checked.request

/-- What holds in every state of a run in which nobody forges. -/
structure Inv (crypto : Crypto) (cfg : Config) (s : State) : Prop where
  signed : ∀ m ∈ s.signed, SignedAs crypto m.args m.secret m.fields
  burning : ∀ {id checked}, s.verifications id = some (.burning checked) →
    Vouched crypto cfg s.clock s.signed checked
  accepted : ∀ checked ∈ s.accepted, Vouched crypto cfg s.clock s.signed checked

lemma inv_initial (clock : ℤ) : Inv crypto cfg (.initial clock) :=
  ⟨fun _ h => (by cases h), fun h => (by cases h), fun _ h => (by cases h)⟩

lemma Vouched.mono {clock clock' : ℤ} {signed signed' : List Signed}
    (h : Vouched crypto cfg clock signed checked) (hclock : clock ≤ clock')
    (hsigned : ∀ m ∈ signed, m ∈ signed') : Vouched crypto cfg clock' signed' checked := by
  obtain ⟨⟨now, hnow, hpassed⟩, m, hm, hbody⟩ := h
  exact ⟨⟨now, hnow.trans hclock, hpassed⟩, m, hsigned m hm, hbody⟩

lemma verifications_self {v : Verification} :
    (s.withVerification id v).verifications id = some v := Function.update_self ..

lemma verifications_of_ne {v : Verification} {i : ℕ} (h : i ≠ id) :
    (s.withVerification id v).verifications i = s.verifications i := Function.update_of_ne h ..

lemma Inv.withVerification (hs : Inv crypto cfg s) {v : Verification}
    (hv : ∀ checked, v = .burning checked → Vouched crypto cfg s.clock s.signed checked) :
    Inv crypto cfg (s.withVerification id v) := by
  refine ⟨hs.signed, fun {i c} h => ?_, hs.accepted⟩
  by_cases hi : i = id
  · subst hi
    rw [verifications_self] at h
    exact hv c (Option.some.inj h)
  · rw [verifications_of_ne hi] at h
    exact hs.burning h

lemma vouched_of_verifyChecks {v : Json} (ha : Unforgeable crypto cfg s (.verify id v))
    (h : verifyChecks crypto cfg s.clock v = .ok checked) : Vouched crypto cfg s.clock s.signed checked := by
  cases v with
  | obj request =>
    obtain ⟨hrequest, -, operation, keyId, secret, signature, ts, hpasses⟩ :=
      passes_of_verifyFields h
    refine ⟨⟨s.clock, le_refl _, ?_⟩, ?_⟩
    · rw [hrequest]
      exact h
    · have hkeyId : keyId ∈ strOf (get request "key_id") := by rw [hpasses.hasKeyId]; rfl
      have hsignature : signature ∈ strOf (get request "signature") := by
        rw [hpasses.hasSignature]; rfl
      obtain ⟨m, hm, -, hbody⟩ :=
        ha keyId hkeyId secret hpasses.key signature hsignature hpasses.authentic
      exact ⟨m, hm, hrequest ▸ hbody⟩
  | _ => cases h

lemma inv_step (hs : Inv crypto cfg s) (ha : Unforgeable crypto cfg s a) :
    Inv crypto cfg (step crypto cfg s a) := by
  cases a with
  | tick seconds =>
    have hclock : s.clock ≤ s.clock + seconds := by omega
    exact ⟨hs.signed, fun h => (hs.burning h).mono hclock fun _ h => h,
      fun c hc => (hs.accepted c hc).mono hclock fun _ h => h⟩
  | sign args =>
    rw [step]
    split
    · rename_i fields secret hfields hsecret
      refine ⟨?_, fun h => (hs.burning h).mono (le_refl _) fun _ h => List.mem_cons_of_mem _ h,
        fun c hc => (hs.accepted c hc).mono (le_refl _) fun _ h => List.mem_cons_of_mem _ h⟩
      intro m hm
      rcases List.mem_cons.mp hm with rfl | hm
      · exact signedAs_of_signRequest hfields hsecret
      · exact hs.signed m hm
    · exact hs
  | verify id request =>
    rw [step]
    split
    · exact hs
    · split
      · rename_i checked hchecked
        refine hs.withVerification ?_
        rintro _ ⟨⟩
        exact vouched_of_verifyChecks ha hchecked
      · exact hs.withVerification nofun
  | burn id =>
    rw [step, burnStep]
    split
    · rename_i checked hburning
      split
      · exact hs.withVerification nofun
      · exact hs.withVerification nofun
      · rename_i nonces _
        have hmoved : Inv crypto cfg (s.withVerification id (.accepted checked)) :=
          hs.withVerification nofun
        refine ⟨hmoved.signed, hmoved.burning, ?_⟩
        intro c hc
        rcases List.mem_cons.mp hc with rfl | hc
        · exact hs.burning hburning
        · exact hs.accepted c hc
    · exact hs
  | purge now =>
    rw [step]
    split
    · exact ⟨hs.signed, hs.burning, hs.accepted⟩
    · exact hs

lemma inv_run (clock : ℤ) {as : List Action}
    (has : StepsMeet (step crypto cfg) (Unforgeable crypto cfg) (.initial clock) as) :
    Inv crypto cfg (run (step crypto cfg) (.initial clock) as) :=
  run_invariant_of_meets (P := Inv crypto cfg) (fun _ _ hs ha => inv_step hs ha)
    (inv_initial clock) has

lemma Vouched.matches (hs : Inv crypto cfg s) (hcollision : Function.Injective crypto.sha256)
    (h : Vouched crypto cfg s.clock s.signed checked) : ∃ m ∈ s.signed, Matches checked.request m.fields := by
  obtain ⟨⟨now, -, hpassed⟩, m, hm, hbody⟩ := h
  obtain ⟨-, -, operation, keyId, secret, signature, ts, hpasses⟩ := passes_of_verifyFields hpassed
  exact ⟨m, hm, matches_of_body_eq hcollision (hs.signed m hm) hbody hpasses.hasOperation
    hpasses.payload⟩

/-! ### Nonces are used once -/

lemma secret_nonce {m : Signed} (hm : SignedAs crypto m.args m.secret m.fields)
    (hbody : canonicalBody m.fields = canonicalBody checked.request)
    (hpassed : verifyFields crypto cfg now checked.request = .ok checked) :
    checked.nonce = .str m.args.usedNonce ∧
      checked.expiry = m.args.now + m.args.ttlSeconds := by
  obtain ⟨-, hnonce, operation, keyId, secret, signature, ts, hpasses⟩ :=
    passes_of_verifyFields hpassed
  have hplain : ∀ name ∈ authenticated, ∀ v, get m.fields name = some v → Plain v := by
    intro name hname v hv
    exact plain_fields name hname v ((hm.get hname).symm.trans hv)
  have hsame : ∀ name ∈ authenticated, get checked.request name = get (m.args.fields crypto) name :=
    fun name hname => (fields_eq_of_body_eq hbody.symm hplain hname).trans (hm.get hname)
  have hown : get (m.args.fields crypto) "nonce" = some (.str m.args.usedNonce) := rfl
  have hexp : get (m.args.fields crypto) "expiry" =
      some (.int (m.args.now + m.args.ttlSeconds)) := rfl
  rw [hsame "nonce" (by decide), hown] at hnonce
  have hexpiry := hpasses.expiry
  rw [hsame "expiry" (by decide), hexp] at hexpiry
  exact ⟨(Option.some.inj hnonce).symm, (Option.some.inj hexpiry).symm⟩

/-- Among signed requests with different nonces, the nonce of a request decides its expiry. -/
def DistinctNonces (s : State) : Prop :=
  ∀ m ∈ s.signed, ∀ m' ∈ s.signed, m.args.usedNonce = m'.args.usedNonce → m.args = m'.args

lemma Vouched.nonce (hs : Inv crypto cfg s) (h : Vouched crypto cfg s.clock s.signed checked) :
    ∃ m ∈ s.signed, checked.nonce = .str m.args.usedNonce ∧
      checked.expiry = m.args.now + m.args.ttlSeconds := by
  obtain ⟨⟨now, -, hpassed⟩, m, hm, hbody⟩ := h
  exact ⟨m, hm, secret_nonce (hs.signed m hm) hbody hpassed⟩

lemma Vouched.expiry_eq {checked' : Checked} (hs : Inv crypto cfg s) (hd : DistinctNonces s)
    (h : Vouched crypto cfg s.clock s.signed checked) (h' : Vouched crypto cfg s.clock s.signed checked')
    (hnonce : checked.nonce = checked'.nonce) : checked.expiry = checked'.expiry := by
  obtain ⟨m, hm, hmn, hme⟩ := h.nonce hs
  obtain ⟨m', hm', hmn', hme'⟩ := h'.nonce hs
  have hargs : m.args = m'.args :=
    hd m hm m' hm' (Json.str.inj (hmn.symm.trans (hnonce.trans hmn')))
  rw [hme, hme', hargs]

/-- The nonces of the accepted requests differ, and each of them is in the store or has been purged
after its expiry. -/
structure Recorded (s : State) : Prop where
  distinct : (s.accepted.map (·.nonce)).Nodup
  recorded : ∀ checked ∈ s.accepted,
    (∃ text, checked.nonce = .str text ∧ s.nonces.get text = some ⟨text, checked.expiry⟩) ∨
      ∃ p, s.purgedTo = some p ∧ checked.expiry < p
  signed : DistinctNonces s

lemma recorded_initial (clock : ℤ) : Recorded (.initial clock) :=
  ⟨List.nodup_nil, fun _ h => (by cases h), fun _ h => (by cases h)⟩

lemma Recorded.congr {s' : State} (hr : Recorded s) (haccepted : s'.accepted = s.accepted)
    (hnonces : s'.nonces = s.nonces) (hpurged : s'.purgedTo = s.purgedTo)
    (hsigned : s'.signed = s.signed) : Recorded s' := by
  refine ⟨haccepted ▸ hr.distinct, ?_, ?_⟩
  · rw [haccepted, hnonces, hpurged]
    exact hr.recorded
  · rw [DistinctNonces, hsigned]
    exact hr.signed

lemma burn_str {nonces nonces' : Nonces} {text : String} {expiry : ℤ}
    (h : burn nonces (.str text) expiry = some (true, nonces')) :
    nonces.insert ⟨text, expiry⟩ = some nonces' := by
  simp only [burn, Option.some.injEq] at h
  split at h
  · rename_i heq
    rw [heq, (Prod.mk.inj h).2]
  · cases (Prod.mk.inj h).1

lemma Recorded.burn (hs : Inv crypto cfg s) (hr : Recorded s)
    (hburning : s.verifications id = some (.burning checked))
    (hpurged : ∀ p ∈ s.purgedTo, p ≤ checked.expiry) {nonces : Nonces}
    (hburn : Protocol.burn s.nonces checked.nonce checked.expiry = some (true, nonces)) :
    Recorded { s.withVerification id (.accepted checked) with
      nonces, accepted := checked :: s.accepted } := by
  have hvouched := hs.burning hburning
  obtain ⟨m, hm, hnonce, -⟩ := hvouched.nonce hs
  rw [hnonce] at hburn
  have hinsert := burn_str hburn
  have hget := Rows.get_of_insert hinsert
  have hfresh : s.nonces.get m.args.usedNonce = none := by
    cases hrow : s.nonces.get m.args.usedNonce with
    | none => rfl
    | some row =>
      obtain ⟨hmem, hkey⟩ := Rows.get_eq_some_iff.mp hrow
      rw [Rows.insert_eq_none_iff.mpr ⟨row, hmem, hkey⟩] at hinsert
      cases hinsert
  -- an accepted request with the nonce would be in the store, or purged after the same expiry
  have hnew : ∀ c ∈ s.accepted, c.nonce ≠ checked.nonce := by
    intro c hc heq
    rcases hr.recorded c hc with ⟨text, htext, hrow⟩ | ⟨p, hp, hlt⟩
    · obtain rfl : text = m.args.usedNonce :=
        Json.str.inj (htext.symm.trans (heq.trans hnonce))
      rw [hfresh] at hrow
      cases hrow
    · have hexpiry := (hs.accepted c hc).expiry_eq hs hr.signed hvouched heq
      have hle := hpurged p hp
      omega
  refine ⟨?_, ?_, hr.signed⟩
  · refine List.nodup_cons.mpr ⟨?_, hr.distinct⟩
    intro hmem
    obtain ⟨c, hc, heq⟩ := List.mem_map.mp hmem
    exact hnew c hc heq
  · intro c hc
    rcases List.mem_cons.mp hc with rfl | hc
    · refine .inl ⟨m.args.usedNonce, hnonce, ?_⟩
      exact (hget _).trans (if_pos rfl)
    · rcases hr.recorded c hc with ⟨text, htext, hrow⟩ | hpast
      · refine .inl ⟨text, htext, (hget _).trans ?_⟩
        have hne : m.args.usedNonce ≠ text := by
          rintro rfl
          exact hnew c hc (htext.trans hnonce.symm)
        rw [if_neg hne, hrow]
      · exact .inr hpast

lemma recorded_step (hs : Inv crypto cfg s) (hr : Recorded s) (ha : Single s a) :
    Recorded (step crypto cfg s a) := by
  cases a with
  | tick seconds => exact hr.congr rfl rfl rfl rfl
  | sign args =>
    rw [step]
    split
    · refine ⟨hr.distinct, hr.recorded, ?_⟩
      intro m hm m' hm' hsame
      rcases List.mem_cons.mp hm with rfl | hm
      · rcases List.mem_cons.mp hm' with rfl | hm'
        · rfl
        · exact absurd hsame.symm (ha m' hm')
      · rcases List.mem_cons.mp hm' with rfl | hm'
        · exact absurd hsame (ha m hm)
        · exact hr.signed m hm m' hm' hsame
    · exact hr
  | verify id request =>
    rw [step]
    split
    · exact hr
    · split <;> exact hr.congr rfl rfl rfl rfl
  | burn id =>
    rw [step, burnStep]
    split
    · rename_i checked hburning
      simp only [Single, hburning] at ha
      split
      · exact hr.congr rfl rfl rfl rfl
      · exact hr.congr rfl rfl rfl rfl
      · rename_i nonces hburn
        exact hr.burn hs hburning ha hburn
    · exact hr
  | purge now =>
    rw [step]
    split
    · refine ⟨hr.distinct, ?_, hr.signed⟩
      intro c hc
      rcases hr.recorded c hc with ⟨text, htext, hrow⟩ | ⟨p, hp, hlt⟩
      · by_cases hexpired : c.expiry < now
        · exact .inr ⟨_, rfl, lt_of_lt_of_le hexpired (le_max_left _ _)⟩
        · refine .inl ⟨text, htext, ?_⟩
          rw [purgeExpiredNonces, Rows.get_delete, hrow]
          simp [hexpired]
      · refine .inr ⟨_, rfl, lt_of_lt_of_le hlt ?_⟩
        rw [hp, Option.getD_some]
        exact le_max_right _ _
    · exact hr

lemma recorded_run (clock : ℤ) {as : List Action}
    (has : StepsMeet (step crypto cfg) (Unforgeable crypto cfg) (.initial clock) as)
    (hsingle : StepsMeet (step crypto cfg) Single (.initial clock) as) :
    Recorded (run (step crypto cfg) (.initial clock) as) := by
  have hboth := run_invariant_of_meets (P := fun s => Inv crypto cfg s ∧ Recorded s)
    (C := fun s a => Unforgeable crypto cfg s a ∧ Single s a)
    (fun s a hs ha => ⟨inv_step hs.1 ha.1, recorded_step hs.1 hs.2 ha.2⟩)
    ⟨inv_initial clock, recorded_initial clock⟩
    (stepsMeet_iff.mpr fun pre a post h =>
      ⟨stepsMeet_iff.mp has pre a post h, stepsMeet_iff.mp hsingle pre a post h⟩)
  exact hboth.2

/-! ### The agent accepts what is signed -/

/-- What the channel guarantees after a run of the agent and the key holders. -/
structure Authentic (crypto : Crypto) (cfg : Config) (clock : ℤ) (as : List Action) : Prop where
  /-- What is accepted carries what a key holder has signed. -/
  genuine : ∀ checked ∈ (run (step crypto cfg) (.initial clock) as).accepted,
    ∃ m ∈ (run (step crypto cfg) (.initial clock) as).signed,
      SignedAs crypto m.args m.secret m.fields ∧ Matches checked.request m.fields
  /-- A nonce enters the store for a request that has passed all the checks. -/
  burned : ∀ a, ∀ row ∈ (run (step crypto cfg) (.initial clock) (as ++ [a])).nonces.rows,
    row ∉ (run (step crypto cfg) (.initial clock) as).nonces.rows →
    ∃ id checked, a = .burn id ∧
      (run (step crypto cfg) (.initial clock) as).verifications id = some (.burning checked) ∧
      ∃ now ≤ (run (step crypto cfg) (.initial clock) as).clock,
        verifyFields crypto cfg now checked.request = .ok checked
  /-- A nonce is accepted once, if the key holders use it once and no purge overtakes a request. -/
  once : StepsMeet (step crypto cfg) Single (.initial clock) as →
    ((run (step crypto cfg) (.initial clock) as).accepted.map (·.nonce)).Nodup
  /-- What a key holder has signed with an allowed lifetime passes the checks while it is fresh. -/
  admitted : ∀ m ∈ (run (step crypto cfg) (.initial clock) as).signed, ∀ id,
    (run (step crypto cfg) (.initial clock) as).verifications id = none →
    secretOf cfg.keyring m.args.keyId = some m.secret → m.args.ttlSeconds ≤ maxLifetime →
    |(run (step crypto cfg) (.initial clock) as).clock - m.args.now| ≤ cfg.maxSkewSeconds →
    (run (step crypto cfg) (.initial clock) as).clock ≤ m.args.now + m.args.ttlSeconds →
    (run (step crypto cfg) (.initial clock) (as ++ [.verify id (.obj m.fields)])).verifications id =
      some (.burning ⟨m.fields, .str m.args.usedNonce, m.args.now + m.args.ttlSeconds⟩)
  accepted : ∀ id checked text,
    (run (step crypto cfg) (.initial clock) as).verifications id = some (.burning checked) →
    checked.nonce = .str text →
    (run (step crypto cfg) (.initial clock) as).nonces.get text = none →
    (run (step crypto cfg) (.initial clock) (as ++ [.burn id])).verifications id =
      some (.accepted checked)

lemma burned_of_new (hs : Inv crypto cfg s) {row : NonceRow}
    (hrow : row ∈ (step crypto cfg s a).nonces.rows) (hnew : row ∉ s.nonces.rows) :
    ∃ id checked, a = .burn id ∧ s.verifications id = some (.burning checked) ∧
      ∃ now ≤ s.clock, verifyFields crypto cfg now checked.request = .ok checked := by
  cases a with
  | tick seconds => exact absurd hrow hnew
  | sign args =>
    rw [step] at hrow
    split at hrow <;> exact absurd hrow hnew
  | verify id request =>
    rw [step] at hrow
    split at hrow
    · exact absurd hrow hnew
    · split at hrow <;> exact absurd hrow hnew
  | burn id =>
    rw [step, burnStep] at hrow
    split at hrow
    · rename_i checked hburning
      exact ⟨id, checked, rfl, hburning, (hs.burning hburning).passed⟩
    · exact absurd hrow hnew
  | purge now =>
    rw [step] at hrow
    split at hrow
    · exact absurd (Rows.mem_delete.mp hrow).1 hnew
    · exact absurd hrow hnew

/-- The channel is authentic in every run in which nobody forges. -/
theorem authentic (crypto : Crypto) (cfg : Config) (clock : ℤ) (as : List Action)
    (hcollision : Function.Injective crypto.sha256)
    (hunforgeable : StepsMeet (step crypto cfg) (Unforgeable crypto cfg) (.initial clock) as) :
    Authentic crypto cfg clock as := by
  have hs := inv_run clock hunforgeable
  refine ⟨?_, ?_, ?_, ?_, ?_⟩
  · intro checked hchecked
    obtain ⟨m, hm, hmatches⟩ := (hs.accepted checked hchecked).matches hs hcollision
    exact ⟨m, hm, hs.signed m hm, hmatches⟩
  · intro a row hrow hnew
    rw [run_concat] at hrow
    exact burned_of_new hs hrow hnew
  · exact fun hsingle => (recorded_run clock hunforgeable hsingle).distinct
  · intro m hm id hfree hkey hlifetime hskew hfresh
    have hok := verifyFields_of_signed (hs.signed m hm) hkey hlifetime hskew hfresh
    rw [run_concat, step, hfree]
    simp only [verifyChecks, hok]
    exact verifications_self
  · intro id checked text hburning hnonce hnew
    obtain ⟨nonces, hinsert, -⟩ :=
      Rows.insert_of_fresh (r := (⟨text, checked.expiry⟩ : NonceRow)) hnew
    rw [run_concat, step, burnStep, hburning]
    simp only [hnonce, burn, hinsert]
    exact verifications_self

/-! ### Runs -/

/-- A keyed hash that shows its secret and its text, and a digest that is the text. -/
def openCrypto : Crypto where
  hmac secret text := String.ofList (':' :: secret.toList ++ text)
  sha256 text := String.ofList text
  hmac_ne secret text := by
    intro h
    have hlist := congrArg String.toList h
    rw [String.toList_ofList] at hlist
    cases hlist

lemma sha256_injective : Function.Injective openCrypto.sha256 := by
  intro text text' h
  have hlist : (String.ofList text).toList = (String.ofList text').toList := congrArg String.toList h
  rwa [String.toList_ofList, String.toList_ofList] at hlist

/-- A start of the runtime of a job. -/
def sampleArgs (nonce : String) (now ttlSeconds : ℤ) : SignArgs where
  provisioningJobId := 7
  runtimeUuid := "runtime-a"
  operation := "START"
  correlationId := "job-7"
  keyring := [("k1", "secret")]
  keyId := "k1"
  now := now
  ttlSeconds := ttlSeconds
  token := nonce

def sampleConfig : Config where
  keyring := [("k1", "secret")]

def requestOf (args : SignArgs) : Json :=
  match signRequest openCrypto args with
  | .ok fields => .obj fields
  | .error _ => .null

def Verification.outcome : Verification → Option (Option Refusal)
  | .burning _ => none
  | .refused refusal => some (some refusal)
  | .accepted _ => some none

instance (crypto : Crypto) (cfg : Config) (s : State) (a : Action) :
    Decidable (Unforgeable crypto cfg s a) :=
  match a with
  | .verify _ (.obj _) => by unfold Unforgeable; infer_instance
  | .verify _ .null | .verify _ (.bool _) | .verify _ (.int _) | .verify _ (.float _)
  | .verify _ (.str _) | .verify _ (.arr _) | .tick _ | .sign _ | .burn _ | .purge _ => .isTrue trivial

/-- A request is accepted; a copy is refused while it is fresh, and one that comes after the purge is
refused as well. -/
def replayedRun : List Action :=
  let args := sampleArgs "n1" 1000 20
  [.sign args, .verify 0 (requestOf args), .burn 0, .verify 1 (requestOf args), .burn 1, .tick 21,
    .purge 1021, .verify 2 (requestOf args)]

theorem authentic_replayedRun :
    ((run (step openCrypto sampleConfig) (.initial 1000) replayedRun).accepted.length = 1 ∧
      [0, 1, 2].map (fun id => ((run (step openCrypto sampleConfig) (.initial 1000)
        replayedRun).verifications id).bind Verification.outcome) =
        [some none, some (some .nonceReplayed), some (some .requestExpired)]) ∧
    Authentic openCrypto sampleConfig 1000 replayedRun :=
  have hrun : (_ ∧ _) ∧ StepsMeet (step openCrypto sampleConfig)
      (Unforgeable openCrypto sampleConfig) (.initial 1000) replayedRun := by decide +kernel
  ⟨hrun.1, authentic openCrypto sampleConfig 1000 replayedRun sha256_injective hrun.2⟩

/-- A request is signed for longer than the agent allows. -/
def longRun : List Action :=
  [.sign (sampleArgs "n1" 1000 700), .verify 0 (requestOf (sampleArgs "n1" 1000 700))]

/-- A key holder signs a second request with a nonce that has been purged. -/
def reusedRun : List Action :=
  let args := sampleArgs "n1" 1000 20
  let again := sampleArgs "n1" 1021 20
  [.sign args, .verify 0 (requestOf args), .burn 0, .tick 21, .purge 1021, .sign again,
    .verify 1 (requestOf again), .burn 1]

lemma eq_of_strOf {v : Json} {text : String} (h : strOf (some v) = some text) : v = .str text := by
  cases v with
  | str s => rw [Option.some.inj h]
  | _ => cases h

/-- A freshly signed request with a new nonce is refused for its lifetime, and a nonce is accepted
twice when a key holder uses it again after the purge; nobody has forged. -/
theorem authentic_broken :
    (StepsMeet (step openCrypto sampleConfig) (Unforgeable openCrypto sampleConfig) (.initial 1000)
        longRun ∧
      ((run (step openCrypto sampleConfig) (.initial 1000) longRun).verifications 0).bind
        Verification.outcome = some (some .expiryTooFar)) ∧
    StepsMeet (step openCrypto sampleConfig) (Unforgeable openCrypto sampleConfig) (.initial 1000)
        reusedRun ∧
      ¬ ((run (step openCrypto sampleConfig) (.initial 1000) reusedRun).accepted.map
        (·.nonce)).Nodup := by
  have hreused : StepsMeet (step openCrypto sampleConfig) (Unforgeable openCrypto sampleConfig)
        (.initial 1000) reusedRun ∧
      (run (step openCrypto sampleConfig) (.initial 1000) reusedRun).accepted.map
        (fun checked => strOf (some checked.nonce)) = [some "n1", some "n1"] := by decide +kernel
  refine ⟨by decide +kernel, hreused.1, fun hnodup => ?_⟩
  have htwice := hreused.2
  generalize (run (step openCrypto sampleConfig) (.initial 1000) reusedRun).accepted = accepted
    at hnodup htwice
  obtain ⟨c, rest, rfl, hc, hrest⟩ := List.map_eq_cons_iff.mp htwice
  obtain ⟨c', rest', rfl, hc', -⟩ := List.map_eq_cons_iff.mp hrest
  have hsame : c'.nonce = c.nonce := (eq_of_strOf hc').trans (eq_of_strOf hc).symm
  exact (List.nodup_cons.mp hnodup).1 (List.mem_map.mpr ⟨c', List.mem_cons_self, hsame⟩)

end Protocol
end GuvFX
