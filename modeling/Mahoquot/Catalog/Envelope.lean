import Mahoquot.Compat.Value
import Mahoquot.Registry.CompositionProperties

/-! Signed model catalogs: the bytes that a signature covers, the signer, and the checks an
envelope passes before its payload is read as a catalog. A signature binds an envelope to
its payload. -/

set_option autoImplicit false

namespace Mahoquot.Catalog
open Compat Library Registry

abbrev CatalogVersion := Nat

def schemaVersionV1 : Nat := 1

inductive CatalogVerificationError where
  | unknownKeyId (keyId : String)
  | incompatibleSchema (schemaVersion : Nat)
  | versionDowngrade (incoming : CatalogVersion) (active lkg : Option CatalogVersion)
      (threshold : CatalogVersion)
  | futureTimestamp (generatedAt now allowedSkewSecs : Nat)
  | expired (expiresAt now : Nat)
  | canonicalizationMismatch
  | invalidSignatureFormat (reason : String)
  | signatureVerificationFailed
  | malformedJson (reason : String)
  | emptyCatalog
  | zeroFallbackRoutableBindings
  | versionMismatch (envelopeVersion payloadVersion : CatalogVersion)
  | registry (error : RegistryError)
deriving Repr, DecidableEq

structure CatalogEnvelope where
  schemaVersion : Nat
  catalogVersion : CatalogVersion
  keyId : String
  generatedAt : Nat
  expiresAt : Option Nat
  signature : String
deriving Repr, DecidableEq

def CatalogEnvelope.new (catalogVersion : CatalogVersion) (keyId : String) (generatedAt : Nat)
    (expiresAt : Option Nat) (signature : String) : CatalogEnvelope :=
  ⟨schemaVersionV1, catalogVersion, keyId, generatedAt, expiresAt, signature⟩

/-- The registry's tables under the version of the catalog that lists them. -/
structure CatalogSnapshot where
  version : CatalogVersion
  registry : RegistrySnapshot

/-- The libraries a catalog goes through: Ed25519, Base64 and JSON. -/
structure Primitives where
  SigningKey : Type
  VerifyingKey : Type
  Signature : Type
  verifyingKey : SigningKey → VerifyingKey
  sign : SigningKey → Bytes → Signature
  verify : VerifyingKey → Bytes → Signature → Bool
  signatureBytes : Signature → Bytes
  signatureFromSlice : Bytes → Except String Signature
  base64Encode : Bytes → String
  base64Decode : String → Except String Bytes
  serde : Serde
  snapshotFromSlice : Bytes → Except String CatalogSnapshot

variable (prim : Primitives)

abbrev Keyring := Std.ExtTreeMap String prim.VerifyingKey

def expiresAtLine : Option Nat → Bytes
  | some exp => utf8 s!"expires_at:{exp}\n"
  | none => utf8 "expires_at:none\n"

def computeSigningBytes (schemaVersion : Nat) (catalogVersion : CatalogVersion) (generatedAt : Nat)
    (expiresAt : Option Nat) (keyId : String) (canonicalPayload : Bytes) : Bytes :=
  utf8 "MAHOQUOT-MODEL-CATALOG-V1\n" ++
  utf8 s!"schema_version:{schemaVersion}\n" ++
  utf8 s!"catalog_version:{catalogVersion}\n" ++
  utf8 s!"generated_at:{generatedAt}\n" ++
  expiresAtLine expiresAt ++
  utf8 s!"key_id:{keyId}\n" ++
  utf8 "canonical_payload:\n" ++
  canonicalPayload

def CatalogEnvelope.signingBytes (envelope : CatalogEnvelope) (payload : Bytes) : Bytes :=
  computeSigningBytes envelope.schemaVersion envelope.catalogVersion envelope.generatedAt
    envelope.expiresAt envelope.keyId payload

/-- Writing a parsed value back cannot fail. -/
def canonicalizeJson (bytes : Bytes) : Except CatalogVerificationError Bytes :=
  match prim.serde.fromSlice bytes with
  | .error reason => .error (.malformedJson reason)
  | .ok value => .ok (prim.serde.toVec value)

def isCanonicalJson (bytes : Bytes) : Except CatalogVerificationError Bool := do
  let canonical ← canonicalizeJson prim bytes
  .ok (bytes == canonical)

structure CatalogSigner where
  signingKey : prim.SigningKey
  keyId : String

def CatalogSigner.signCatalog {prim : Primitives} (signer : CatalogSigner prim)
    (catalogVersion : CatalogVersion) (generatedAt : Nat) (expiresAt : Option Nat)
    (canonicalPayload : Bytes) : Except CatalogVerificationError CatalogEnvelope := do
  if !(← isCanonicalJson prim canonicalPayload) then .error .canonicalizationMismatch
  else
    let signingBytes := computeSigningBytes schemaVersionV1 catalogVersion generatedAt expiresAt
      signer.keyId canonicalPayload
    let signature := prim.sign signer.signingKey signingBytes
    .ok (.new catalogVersion signer.keyId generatedAt expiresAt (prim.base64Encode (prim.signatureBytes signature)))

def saturatingAddU64 (left right : Nat) : Nat := min (left + right) (2 ^ 64 - 1)

def versionThreshold : Option CatalogVersion → Option CatalogVersion → Option CatalogVersion
  | some active, some lkg => some (max active lkg)
  | some active, none => some active
  | none, some lkg => some lkg
  | none, none => none

def checkVersion (incoming : CatalogVersion) (active lkg : Option CatalogVersion) :
    Except CatalogVerificationError Unit :=
  match versionThreshold active lkg with
  | some threshold =>
    if incoming ≤ threshold then .error (.versionDowngrade incoming active lkg threshold)
    else .ok ()
  | none => .ok ()

def checkWindow (envelope : CatalogEnvelope) (now allowedSkewSecs : Nat) : Except CatalogVerificationError Unit :=
  if saturatingAddU64 now allowedSkewSecs < envelope.generatedAt then
    .error (.futureTimestamp envelope.generatedAt now allowedSkewSecs)
  else
    match envelope.expiresAt with
    | some exp => if exp < now then .error (.expired exp now) else .ok ()
    | none => .ok ()

def parseSignature (text : String) : Except CatalogVerificationError prim.Signature :=
  match prim.base64Decode (Text.trim text) with
  | .error reason => .error (.invalidSignatureFormat reason)
  | .ok bytes =>
    match prim.signatureFromSlice bytes with
    | .error reason => .error (.invalidSignatureFormat reason)
    | .ok signature => .ok signature

def hasRoutableBinding (registry : RegistrySnapshot) : Bool :=
  registry.models.toList.any fun entry => entry.2.bindings.toList.any fun binding =>
    !registry.excludes entry.1 (some binding.1) && !registry.excludes entry.1 none

def readPayload (catalogVersion : CatalogVersion) (rawPayload : Bytes) :
    Except CatalogVerificationError CatalogSnapshot := do
  if !(← isCanonicalJson prim rawPayload) then .error .canonicalizationMismatch
  else
    match prim.snapshotFromSlice rawPayload with
    | .error reason => .error (.malformedJson reason)
    | .ok snapshot =>
      if snapshot.version ≠ catalogVersion then
        .error (.versionMismatch catalogVersion snapshot.version)
      else if snapshot.registry.models.isEmpty then .error .emptyCatalog
      else if !hasRoutableBinding snapshot.registry then .error .zeroFallbackRoutableBindings
      else
        match snapshot.registry.validate with
        | .error error => .error (.registry error)
        | .ok () => .ok snapshot

def verifyCatalogEnvelope {prim : Primitives} (envelope : CatalogEnvelope) (rawPayload : Bytes)
    (keyring : Keyring prim) (activeVersion lkgVersion : Option CatalogVersion)
    (now allowedSkewSecs : Nat) : Except CatalogVerificationError CatalogSnapshot := do
  if envelope.schemaVersion ≠ schemaVersionV1 then
    .error (.incompatibleSchema envelope.schemaVersion)
  else
    match keyring[envelope.keyId]? with
    | none => .error (.unknownKeyId envelope.keyId)
    | some verifyingKey =>
      checkVersion envelope.catalogVersion activeVersion lkgVersion
      checkWindow envelope now allowedSkewSecs
      -- The signature is verified before anything of the payload is interpreted.
      let signature ← parseSignature prim envelope.signature
      if !prim.verify verifyingKey (envelope.signingBytes rawPayload) signature then
        .error .signatureVerificationFailed
      else readPayload prim envelope.catalogVersion rawPayload

open String
variable {prim : Primitives}

variable {active lkg : Option CatalogVersion} {payload : Bytes} {now skew : Nat} {snapshot : CatalogSnapshot}
  {keyring : Keyring prim}

theorem versionThreshold_bounds {incoming : CatalogVersion} :
    (∀ threshold ∈ versionThreshold active lkg, threshold < incoming) ↔
      (∀ version ∈ active, version < incoming) ∧ ∀ version ∈ lkg, version < incoming := by
  cases active with
  | none | some =>
    cases lkg with
    | none => simp [versionThreshold]
    | some lkg => simp [versionThreshold]

theorem checkVersion_eq_ok {incoming : CatalogVersion} : checkVersion incoming active lkg = .ok () ↔
      (∀ version ∈ active, version < incoming) ∧ ∀ version ∈ lkg, version < incoming := by
  rw [← versionThreshold_bounds, checkVersion]
  cases versionThreshold active lkg with
  | none => simp
  | some threshold =>
    by_cases old : incoming ≤ threshold
    · simp [old]
    · simp [Nat.lt_of_not_le old]

theorem checkWindow_eq_ok {envelope : CatalogEnvelope} : checkWindow envelope now skew = .ok () ↔
      envelope.generatedAt ≤ saturatingAddU64 now skew ∧ ∀ exp ∈ envelope.expiresAt, now ≤ exp := by
  unfold checkWindow
  by_cases future : saturatingAddU64 now skew < envelope.generatedAt
  · simp [future]
  · rw [if_neg future]
    cases envelope.expiresAt with
    | none => simpa using future
    | some exp =>
      by_cases expired : exp < now
      · simp [Nat.not_le_of_lt expired]
      · simp [Nat.le_of_not_lt expired, Nat.le_of_not_lt future]

theorem isCanonicalJson_eq_ok_true {bytes : Bytes} : isCanonicalJson prim bytes = .ok true ↔
      ∃ value, prim.serde.fromSlice bytes = .ok value ∧ bytes = prim.serde.toVec value := by
  unfold isCanonicalJson canonicalizeJson
  cases prim.serde.fromSlice bytes with
  | error | ok => simp [bind, Except.bind]

theorem guard_canonical_eq_ok {α : Type} {bytes : Bytes} {value : α} {next : Except CatalogVerificationError α} :
    (do if !(← isCanonicalJson prim bytes) then .error .canonicalizationMismatch else next) = .ok value ↔
      isCanonicalJson prim bytes = .ok true ∧ next = .ok value := by
  rw [bind_eq_ok]
  constructor
  · rintro ⟨canonical, checked, rest⟩
    cases canonical with
    | false => simp at rest
    | true => exact ⟨checked, by simpa using rest⟩
  · rintro ⟨checked, rest⟩
    exact ⟨true, checked, by simpa using rest⟩

/-- What the payload of an accepted catalog is. -/
structure Publishable (prim : Primitives) (version : CatalogVersion) (payload : Bytes)
    (snapshot : CatalogSnapshot) : Prop where
  canonical : isCanonicalJson prim payload = .ok true
  parses : prim.snapshotFromSlice payload = .ok snapshot
  versioned : snapshot.version = version
  nonempty : snapshot.registry.models.isEmpty = false
  routable : hasRoutableBinding snapshot.registry = true
  valid : snapshot.registry.validate = .ok ()

theorem readPayload_eq_ok {version : CatalogVersion} :
    readPayload prim version payload = .ok snapshot ↔ Publishable prim version payload snapshot := by
  unfold readPayload
  rw [guard_canonical_eq_ok]
  constructor
  · rintro ⟨canonical, rest⟩
    cases parsed : prim.snapshotFromSlice payload with
    | error reason => simp [parsed] at rest
    | ok found =>
      simp only [parsed] at rest
      split at rest
      · cases rest
      · next versioned =>
        split at rest
        · cases rest
        · next nonempty =>
          split at rest
          · cases rest
          · next routable =>
            cases validated : found.registry.validate with
            | error error => simp [validated] at rest
            | ok passed =>
              simp only [validated, Except.ok.injEq] at rest
              subst rest
              exact ⟨canonical, parsed, by simpa using versioned, by simpa using nonempty, by simpa using routable, validated⟩
  · intro publishable
    refine ⟨publishable.canonical, ?_⟩
    simp [publishable.parses, publishable.versioned, publishable.nonempty, publishable.routable, publishable.valid]

/-- An accepted envelope: trusted key, newer version, open window, and a
signature over its fields and the payload. -/
structure Accepts (envelope : CatalogEnvelope) (payload : Bytes) (keyring : Keyring prim)
    (active lkg : Option CatalogVersion) (now skew : Nat) (snapshot : CatalogSnapshot) : Prop where
  schema : envelope.schemaVersion = schemaVersionV1
  newer : (∀ version ∈ active, version < envelope.catalogVersion) ∧
    ∀ version ∈ lkg, version < envelope.catalogVersion
  window : envelope.generatedAt ≤ saturatingAddU64 now skew ∧
    ∀ exp ∈ envelope.expiresAt, now ≤ exp
  signed : ∃ key signature, keyring[envelope.keyId]? = some key ∧
    parseSignature prim envelope.signature = .ok signature ∧
      prim.verify key (envelope.signingBytes payload) signature = true
  publishable : Publishable prim envelope.catalogVersion payload snapshot

theorem verifyCatalogEnvelope_eq_ok {envelope : CatalogEnvelope} :
    verifyCatalogEnvelope envelope payload keyring active lkg now skew = .ok snapshot ↔
      Accepts envelope payload keyring active lkg now skew snapshot := by
  unfold verifyCatalogEnvelope
  by_cases schema : envelope.schemaVersion = schemaVersionV1
  · rw [if_neg (not_not.mpr schema)]
    cases found : keyring[envelope.keyId]? with
    | none =>
      constructor
      · intro accepted
        cases accepted
      · intro accepted
        obtain ⟨key, _, trusted, _⟩ := accepted.signed
        rw [found] at trusted
        cases trusted
    | some key =>
      rw [unit_bind_eq_ok, unit_bind_eq_ok, bind_eq_ok, checkVersion_eq_ok, checkWindow_eq_ok]
      constructor
      · rintro ⟨newer, window, signature, parsed, rest⟩
        split at rest
        · cases rest
        · next verified =>
          exact ⟨schema, newer, window, ⟨key, signature, found, parsed, by simpa using verified⟩, readPayload_eq_ok.mp rest⟩
      · intro accepted
        obtain ⟨trusted, signature, listed, parsed, verified⟩ := accepted.signed
        cases found.symm.trans listed
        refine ⟨accepted.newer, accepted.window, signature, parsed, ?_⟩
        rw [if_neg (by simp [verified])]
        exact readPayload_eq_ok.mpr accepted.publishable
  · rw [if_pos schema]
    constructor
    · intro accepted
      cases accepted
    · intro accepted
      exact absurd accepted.schema schema

/-! ## The signed bytes -/

def expiryText : Option Nat → String
  | some exp => toString exp
  | none => "none"

theorem newline_notMem_expiryText (expiresAt : Option Nat) : '\n' ∉ (expiryText expiresAt).toList := by
  cases expiresAt with
  | none => decide
  | some exp => exact newline_notMem_toString_nat exp

theorem expiryText_injective {first second : Option Nat}
    (same : (expiryText first).toList = (expiryText second).toList) : first = second := by
  have notNumber : ∀ exp : Nat, "none".toList ≠ (toString exp).toList := by
    intro exp same
    have digit : 'n' ∈ (toString exp).toList := same ▸ by decide
    exact absurd (isDigit_of_mem_toString digit) (by decide)
  cases first with
  | none =>
    cases second with
    | none => rfl
    | some exp => exact absurd same (notNumber exp)
  | some exp =>
    cases second with
    | none => exact absurd same.symm (notNumber exp)
    | some other => rw [toString_nat_injective same]

def signingText (schemaVersion catalogVersion generatedAt : Nat) (expiresAt : Option Nat)
    (keyId payload : String) : String :=
  "MAHOQUOT-MODEL-CATALOG-V1\n" ++ (s!"schema_version:{schemaVersion}\n" ++
    (s!"catalog_version:{catalogVersion}\n" ++ (s!"generated_at:{generatedAt}\n" ++
      ("expires_at:" ++ expiryText expiresAt ++ "\n" ++ (s!"key_id:{keyId}\n" ++
        ("canonical_payload:\n" ++ payload))))))

theorem expiresAtLine_eq (expiresAt : Option Nat) :
    expiresAtLine expiresAt = utf8 ("expires_at:" ++ expiryText expiresAt ++ "\n") := by
  cases expiresAt with
  | none => exact congrArg utf8 rfl
  | some exp => rfl

theorem utf8_join (first second third fourth fifth sixth seventh last : String) :
    utf8 first ++ utf8 second ++ utf8 third ++ utf8 fourth ++ utf8 fifth ++ utf8 sixth ++
        utf8 seventh ++ utf8 last = utf8 (first ++ (second ++ (third ++ (fourth ++ (fifth ++ (sixth ++
        (seventh ++ last))))))) := by
  simp only [utf8_append, List.append_assoc]

theorem computeSigningBytes_utf8 (schemaVersion catalogVersion generatedAt : Nat)
    (expiresAt : Option Nat) (keyId payload : String) :
    computeSigningBytes schemaVersion catalogVersion generatedAt expiresAt keyId (utf8 payload) =
      utf8 (signingText schemaVersion catalogVersion generatedAt expiresAt keyId payload) := by
  rw [computeSigningBytes, expiresAtLine_eq]
  exact utf8_join _ _ _ _ _ _ _ _

theorem line_injective {label value value' rest rest' : String} (clean : '\n' ∉ value.toList)
    (clean' : '\n' ∉ value'.toList) (same : label ++ value ++ "\n" ++ rest = label ++ value' ++ "\n" ++ rest') :
    value.toList = value'.toList ∧ rest = rest' := by
  have newline : "\n".toList = ['\n'] := rfl
  replace same := congrArg toList same
  simp only [toList_append, List.append_assoc] at same
  obtain ⟨values, rests⟩ := Text.eq_of_first_separator clean clean' (List.append_cancel_left same)
  exact ⟨values, toList_injective rests⟩

/-- Whatever a value holds, the line that closes it is the last but one. -/
theorem lastLine_injective {label value value' closing rest rest' : String} (marker : List Char)
    (closed : closing.toList = marker ++ ['\n']) (clean : '\n' ∉ rest.toList) (clean' : '\n' ∉ rest'.toList)
    (same : label ++ value ++ "\n" ++ (closing ++ rest) = label ++ value' ++ "\n" ++ (closing ++ rest')) :
    value = value' ∧ rest = rest' := by
  have cut (value rest : String) : (label ++ value ++ "\n" ++ (closing ++ rest)).toList =
      (label.toList ++ (value.toList ++ ("\n".toList ++ marker))) ++ '\n' :: rest.toList := by
    simp [closed]
  replace same := congrArg toList same
  rw [cut, cut] at same
  obtain ⟨values, rests⟩ := Text.eq_of_last_separator clean clean' same
  have values := List.append_cancel_right (List.append_cancel_left values)
  exact ⟨toList_injective values, toList_injective rests⟩

/-- The lines before the key id hold no line break, and neither does the payload: the
message is cut from both ends. -/
theorem signingText_injective {schema schema' version version' generated generated' : Nat}
    {expires expires' : Option Nat} {keyId keyId' payload payload' : String}
    (oneLine : '\n' ∉ payload.toList) (oneLine' : '\n' ∉ payload'.toList)
    (same : signingText schema version generated expires keyId payload =
      signingText schema' version' generated' expires' keyId' payload') :
    schema = schema' ∧ version = version' ∧ generated = generated' ∧ expires = expires' ∧
      keyId = keyId' ∧ payload = payload' := by
  have line := newline_notMem_toString_nat
  have same := (append_right_inj _).mp same
  obtain ⟨schemas, same⟩ := line_injective (line _) (line _) same
  obtain ⟨versions, same⟩ := line_injective (line _) (line _) same
  obtain ⟨stamps, same⟩ := line_injective (line _) (line _) same
  obtain ⟨expiries, same⟩ := line_injective (newline_notMem_expiryText _) (newline_notMem_expiryText _) same
  obtain ⟨keys, payloads⟩ := lastLine_injective "canonical_payload:".toList rfl oneLine oneLine' same
  exact ⟨toString_nat_injective schemas, toString_nat_injective versions,
    toString_nat_injective stamps, expiryText_injective expiries, keys, payloads⟩

/-- What the libraries are documented to do: signatures verify, encodings are read back,
Base64 text has no white space and numbers are written on one line. -/
structure Primitives.Lawful (prim : Primitives) : Prop where
  verify_sign : ∀ key message,
    prim.verify (prim.verifyingKey key) message (prim.sign key message) = true
  signatureFromSlice_bytes : ∀ signature,
    prim.signatureFromSlice (prim.signatureBytes signature) = .ok signature
  base64Decode_encode : ∀ bytes, prim.base64Decode (prim.base64Encode bytes) = .ok bytes
  base64Encode_solid : ∀ bytes, ∀ char ∈ (prim.base64Encode bytes).toList,
    Text.isWhitespace char = false
  formatFloat_oneLine : ∀ bits, '\n' ∉ (prim.serde.formatFloat bits).toList

theorem canonical_is_oneLine (lawful : prim.Lawful) (canonical : isCanonicalJson prim payload = .ok true) :
    ∃ text : String, payload = utf8 text ∧ '\n' ∉ text.toList := by
  obtain ⟨value, -, written⟩ := isCanonicalJson_eq_ok_true.mp canonical
  refine ⟨prim.serde.toString value, written, ?_⟩
  rw [Serde.toString, toList_ofList]
  exact value.newline_notMem_render lawful.formatFloat_oneLine

theorem computeSigningBytes_injective (lawful : prim.Lawful)
    {schema schema' version version' generated generated' : Nat} {expires expires' : Option Nat}
    {keyId keyId' : String} {payload' : Bytes} (canonical : isCanonicalJson prim payload = .ok true)
    (canonical' : isCanonicalJson prim payload' = .ok true)
    (same : computeSigningBytes schema version generated expires keyId payload =
      computeSigningBytes schema' version' generated' expires' keyId' payload') :
    schema = schema' ∧ version = version' ∧ generated = generated' ∧ expires = expires' ∧
      keyId = keyId' ∧ payload = payload' := by
  obtain ⟨text, rfl, oneLine⟩ := canonical_is_oneLine lawful canonical
  obtain ⟨text', rfl, oneLine'⟩ := canonical_is_oneLine lawful canonical'
  rw [computeSigningBytes_utf8, computeSigningBytes_utf8] at same
  obtain ⟨schemas, versions, stamps, expiries, keys, payloads⟩ := signingText_injective oneLine oneLine' (utf8_injective same)
  exact ⟨schemas, versions, stamps, expiries, keys, by rw [payloads]⟩

/-! ## Signers -/

structure SigningCall (prim : Primitives) where
  signer : CatalogSigner prim
  catalogVersion : CatalogVersion
  generatedAt : Nat
  expiresAt : Option Nat
  payload : Bytes

namespace SigningCall
variable (call : SigningCall prim)

def run : Except CatalogVerificationError CatalogEnvelope :=
  call.signer.signCatalog call.catalogVersion call.generatedAt call.expiresAt call.payload

def message : Bytes :=
  computeSigningBytes schemaVersionV1 call.catalogVersion call.generatedAt call.expiresAt
    call.signer.keyId call.payload

def verifyingKey : prim.VerifyingKey :=
  prim.verifyingKey call.signer.signingKey

def envelope : CatalogEnvelope :=
  .new call.catalogVersion call.signer.keyId call.generatedAt call.expiresAt
    (prim.base64Encode (prim.signatureBytes (prim.sign call.signer.signingKey call.message)))

theorem run_eq_ok {call : SigningCall prim} {envelope : CatalogEnvelope} : call.run = .ok envelope ↔
      isCanonicalJson prim call.payload = .ok true ∧ call.envelope = envelope := by
  unfold run CatalogSigner.signCatalog
  rw [guard_canonical_eq_ok]
  exact and_congr_right fun _ => by
    simp only [Except.ok.injEq]
    rfl

theorem envelope_parses (lawful : prim.Lawful) (call : SigningCall prim) :
    parseSignature prim call.envelope.signature = .ok (prim.sign call.signer.signingKey call.message) := by
  have solid := lawful.base64Encode_solid (prim.signatureBytes (prim.sign call.signer.signingKey call.message))
  unfold parseSignature envelope CatalogEnvelope.new
  rw [Text.trim_eq_self solid, lawful.base64Decode_encode]
  simp only [lawful.signatureFromSlice_bytes]

end SigningCall

/-- No forgery: where the signature of the envelope verifies, a holder of the
key has signed that message. -/
def Unforged (keyring : Keyring prim) (signed : List (SigningCall prim))
    (envelope : CatalogEnvelope) (payload : Bytes) : Prop :=
  ∀ key signature, keyring[envelope.keyId]? = some key →
    parseSignature prim envelope.signature = .ok signature →
      prim.verify key (envelope.signingBytes payload) signature = true →
        ∃ call ∈ signed, call.run.isOk ∧ call.verifyingKey = key ∧
          call.message = envelope.signingBytes payload

theorem accepted_was_signed (lawful : prim.Lawful) {signed : List (SigningCall prim)}
    {envelope : CatalogEnvelope} (unforged : Unforged keyring signed envelope payload)
    (accepted : verifyCatalogEnvelope envelope payload keyring active lkg now skew = .ok snapshot) :
    ∃ call ∈ signed, keyring[envelope.keyId]? = some call.verifyingKey ∧ call.payload = payload ∧
      ∃ issued, call.run = .ok issued ∧ { issued with signature := envelope.signature } = envelope := by
  have passed := verifyCatalogEnvelope_eq_ok.mp accepted
  obtain ⟨key, signature, trusted, parsed, verified⟩ := passed.signed
  obtain ⟨call, member, ran, rfl, message⟩ := unforged key signature trusted parsed verified
  cases issued : call.run with
  | error error => simp [issued, Except.toBool] at ran
  | ok issue =>
    obtain ⟨canonical, rfl⟩ := SigningCall.run_eq_ok.mp issued
    obtain ⟨schemas, versions, stamps, expiries, keys, payloads⟩ :=
      computeSigningBytes_injective lawful canonical passed.publishable.canonical message
    refine ⟨call, member, trusted, payloads, call.envelope, issued, ?_⟩
    simp_all [SigningCall.envelope, CatalogEnvelope.new]

theorem signed_is_accepted (lawful : prim.Lawful) (call : SigningCall prim)
    (publishable : Publishable prim call.catalogVersion call.payload snapshot)
    (trusted : keyring[call.signer.keyId]? = some call.verifyingKey)
    (stamp : call.generatedAt < 2 ^ 64) (generated : call.generatedAt ≤ now + skew)
    (alive : ∀ exp ∈ call.expiresAt, now ≤ exp) (active_lt : ∀ version ∈ active, version < call.catalogVersion)
    (lkg_lt : ∀ version ∈ lkg, version < call.catalogVersion) : ∃ envelope, call.run = .ok envelope ∧
      verifyCatalogEnvelope envelope call.payload keyring active lkg now skew = .ok snapshot := by
  refine ⟨call.envelope, SigningCall.run_eq_ok.mpr ⟨publishable.canonical, rfl⟩, ?_⟩
  apply verifyCatalogEnvelope_eq_ok.mpr
  refine ⟨rfl, ⟨active_lt, lkg_lt⟩, ⟨?_, alive⟩, ?_, publishable⟩
  · show call.generatedAt ≤ saturatingAddU64 now skew
    unfold saturatingAddU64
    omega
  · exact ⟨call.verifyingKey, _, trusted, call.envelope_parses lawful, lawful.verify_sign _ _⟩

/-- The signed bytes determine the envelope and the payload, an accepted envelope is one
that a signer issued, and what a signer issues is accepted within its window. -/
theorem signature_binds_envelope (lawful : prim.Lawful) :
    (∀ (schema version generated schema' version' generated' : Nat)
      (expires expires' : Option Nat) (keyId keyId' : String) (payload payload' : Bytes),
      isCanonicalJson prim payload = .ok true → isCanonicalJson prim payload' = .ok true →
      computeSigningBytes schema version generated expires keyId payload =
        computeSigningBytes schema' version' generated' expires' keyId' payload' →
      schema = schema' ∧ version = version' ∧ generated = generated' ∧ expires = expires' ∧
        keyId = keyId' ∧ payload = payload') ∧
    (∀ (keyring : Keyring prim) (signed : List (SigningCall prim)) (envelope : CatalogEnvelope)
      (payload : Bytes) (active lkg : Option CatalogVersion) (now skew : Nat) (snapshot : CatalogSnapshot),
      Unforged keyring signed envelope payload →
      verifyCatalogEnvelope envelope payload keyring active lkg now skew = .ok snapshot →
      ∃ call ∈ signed, keyring[envelope.keyId]? = some call.verifyingKey ∧
        call.payload = payload ∧ ∃ issued, call.run = .ok issued ∧
          { issued with signature := envelope.signature } = envelope) ∧
    ∀ (call : SigningCall prim) (keyring : Keyring prim) (active lkg : Option CatalogVersion)
      (now skew : Nat) (snapshot : CatalogSnapshot), Publishable prim call.catalogVersion call.payload snapshot →
      keyring[call.signer.keyId]? = some call.verifyingKey →
      call.generatedAt < 2 ^ 64 → call.generatedAt ≤ now + skew → (∀ exp ∈ call.expiresAt, now ≤ exp) →
      (∀ version ∈ active, version < call.catalogVersion) → (∀ version ∈ lkg, version < call.catalogVersion) →
      ∃ envelope, call.run = .ok envelope ∧
        verifyCatalogEnvelope envelope call.payload keyring active lkg now skew = .ok snapshot := by
  refine ⟨?_, ?_, ?_⟩
  · intro schema version generated schema' version' generated' expires expires' keyId keyId'
      payload payload' canonical canonical' same
    exact computeSigningBytes_injective lawful canonical canonical' same
  · intro keyring signed envelope payload active lkg now skew snapshot unforged accepted
    exact accepted_was_signed lawful unforged accepted
  · intro call keyring active lkg now skew snapshot publishable trusted stamp generated alive
      active_lt lkg_lt
    exact signed_is_accepted lawful call publishable trusted stamp generated alive active_lt lkg_lt

def plainCatalog : CatalogSnapshot :=
  ⟨7, .codexCatalog [RegistrySnapshot.boundModel "alpha" .codex] []⟩

/-- Libraries that sign by writing the key before the message and know two payloads, of
which one is a catalog. -/
def plainPrimitives : Primitives where
  SigningKey := UInt8
  VerifyingKey := UInt8
  Signature := Bytes
  verifyingKey := id
  sign key message := key :: message
  verify key message signature := signature == key :: message
  signatureBytes := id
  signatureFromSlice := .ok
  base64Encode bytes := ofList (bytes.map fun byte => Char.ofNat (byte.toNat + 256))
  base64Decode text := .ok (text.toList.map fun char => UInt8.ofNat (char.toNat - 256))
  serde := ⟨fun bytes => if bytes = utf8 "\x7b\x7d" then .ok (.object [])
    else if bytes = utf8 "[]" then .ok (.array []) else .error "expected value", fun _ => "0.5"⟩
  snapshotFromSlice bytes := if bytes = utf8 "\x7b\x7d" then .ok plainCatalog else .error "expected a map"

theorem byteChar : ∀ byte < 256, (Char.ofNat (byte + 256)).toNat = byte + 256 ∧
    Text.isWhitespace (Char.ofNat (byte + 256)) = false := by
  decide +kernel

theorem plainPrimitives_lawful : plainPrimitives.Lawful where
  verify_sign key message := beq_self_eq_true (key :: message : List UInt8)
  signatureFromSlice_bytes signature := rfl
  base64Decode_encode bytes := by
    have decoded (byte : UInt8) :
        UInt8.ofNat ((Char.ofNat (byte.toNat + 256)).toNat - 256) = byte := by
      simp [(byteChar byte.toNat byte.toNat_lt).1]
    simp [plainPrimitives, Function.comp_def, decoded]
  base64Encode_solid bytes char member := by
    simp only [plainPrimitives, toList_ofList, List.mem_map] at member
    obtain ⟨byte, -, rfl⟩ := member
    exact (byteChar byte.toNat byte.toNat_lt).2
  formatFloat_oneLine bits := by
    show '\n' ∉ "0.5".toList
    decide

/-- The key id holds the line that would end it. -/
def plainCall : SigningCall plainPrimitives where
  signer := ⟨(3 : UInt8), "ops\ncanonical_payload:\n"⟩
  catalogVersion := 7
  generatedAt := 100
  expiresAt := some 400
  payload := utf8 "\x7b\x7d"

def plainKeyring : Keyring plainPrimitives :=
  (∅ : Keyring plainPrimitives).insert plainCall.signer.keyId plainCall.verifyingKey

theorem plainKeyring_trusts : plainKeyring[plainCall.signer.keyId]? = some plainCall.verifyingKey :=
  Std.ExtTreeMap.getElem?_insert_self

theorem plainCall_publishable : Publishable plainPrimitives 7 plainCall.payload plainCatalog where
  canonical := isCanonicalJson_eq_ok_true.mpr ⟨.object [], rfl, rfl⟩
  parses := rfl
  versioned := rfl
  nonempty := by decide +kernel
  routable := by decide +kernel
  valid := by decide +kernel

theorem plainCall_unforged : Unforged plainKeyring [plainCall] plainCall.envelope plainCall.payload := by
  intro key signature trusted parsed verified
  have ran := SigningCall.run_eq_ok.mpr ⟨plainCall_publishable.canonical, rfl⟩
  refine ⟨plainCall, List.mem_singleton_self _, by rw [ran]; rfl, ?_, rfl⟩
  exact Option.some.inj (plainKeyring_trusts.symm.trans trusted)

/-- The catalog is accepted before its time stamp, within the skew, and what was accepted is
what was signed; the other payload is not. -/
theorem plainCall_binds : verifyCatalogEnvelope plainCall.envelope plainCall.payload plainKeyring (some 6) none 90 300 =
        .ok plainCatalog ∧ (∃ call ∈ [plainCall], call.payload = plainCall.payload ∧ call.run.isOk) ∧
      (verifyCatalogEnvelope plainCall.envelope (utf8 "[]") plainKeyring (some 6) none 90 300).isOk = false := by
  obtain ⟨-, sound, complete⟩ := signature_binds_envelope plainPrimitives_lawful
  obtain ⟨envelope, ran, accepted⟩ := complete plainCall plainKeyring (some 6) none 90 300 _
    plainCall_publishable plainKeyring_trusts (by decide) (by decide) (by decide) (by decide)
    (by decide)
  obtain ⟨-, rfl⟩ := SigningCall.run_eq_ok.mp ran
  obtain ⟨call, member, -, same, issued, issue, -⟩ := sound plainKeyring [plainCall] _ _ _ _ _ _ _ plainCall_unforged accepted
  exact ⟨accepted, ⟨call, member, same, by rw [issue]; rfl⟩, by decide +kernel⟩

end Mahoquot.Catalog
