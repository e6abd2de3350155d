import CacheWarden.Daemon.Ceremony
import CacheWarden.Lib.Wire
import Mathlib.Data.List.DropRight

/-!
# What a browser posts, and how it is verified

The relying party's half of WebAuthn. A response names its challenge, its kind
and its origin in client data, and the relying party and the user's part in
authenticator data; an assertion is a signature over both. JSON, CBOR, base64,
SHA-256 and the two signature schemes are the work of crates outside the
repository.
-/

set_option autoImplicit false

namespace CacheWarden

namespace Daemon

open Vault

section Values

/-- JSON as it was read. A number, a truth value, an array or `null` is none of
the things that are asked for. -/
inductive JsonValue where
  | text (s : String)
  | object (fields : List (String × JsonValue))
  | other

namespace JsonValue

def get (self : JsonValue) (name : String) : Option JsonValue :=
  match self with
  | .object fields => fields.lookup name
  | _ => none

def asStr : JsonValue → Option String
  | .text s => some s
  | _ => none

def str (self : JsonValue) (name : String) : Option String := (self.get name).bind asStr

end JsonValue

inductive CborValue where
  | bytes (b : Bytes)
  | text (s : String)
  | integer (n : ℤ)
  | map (entries : List (CborValue × CborValue))
  | other

namespace CborValue

def asMap : CborValue → Option (List (CborValue × CborValue))
  | .map entries => some entries
  | _ => none

def asText : CborValue → Option String
  | .text s => some s
  | _ => none

def asBytes : CborValue → Option Bytes
  | .bytes b => some b
  | _ => none

def asInteger : CborValue → Option ℤ
  | .integer n => some n
  | _ => none

def mapGetBytes (self : CborValue) (key : String) : Option Bytes :=
  ((self.asMap.bind fun entries => entries.find? fun e => e.1.asText = some key).map Prod.snd).bind
    asBytes

/-- The first entry with this label. -/
def mapGet (self : CborValue) (label : ℤ) : Option CborValue :=
  (self.asMap.bind fun entries => entries.find? fun e => e.1.asInteger = some label).map Prod.snd

def mapGetInt (self : CborValue) (label : ℤ) : Option ℤ := (self.mapGet label).bind asInteger

def mapGetLabelBytes (self : CborValue) (label : ℤ) : Option Bytes :=
  (self.mapGet label).bind asBytes

end CborValue

end Values

/-- The crates that a response goes through. -/
structure WebCrates where
  P256Key : Type
  Ed25519Key : Type
  json : Bytes → Option JsonValue
  cbor : Bytes → Option CborValue
  encodeUrlSafe : Bytes → String
  decodeUrlSafe : String → Option Bytes
  sha256 : Bytes → Bytes
  p256FromSec1 : Bytes → Option P256Key
  p256ToSec1 : P256Key → Bytes
  p256Verify : P256Key → Bytes → Bytes → Bool
  ed25519FromBytes : Bytes → Option Ed25519Key
  ed25519ToBytes : Ed25519Key → Bytes
  ed25519Verify : Ed25519Key → Bytes → Bytes → Bool

inductive Refusal where
  | clientDataUnparseable
  | wrongCeremonyType
  | challengeMismatch
  | originNotAllowed
  | attestationUnparseable
  | authenticatorDataTooShort
  | rpIdHashMismatch
  | userNotPresent
  | userNotVerified
  | noAttestedCredential
  | unsupportedAlgorithm
  | badSignature
  | wrongCredential
  deriving DecidableEq

inductive CredentialPublicKey (w : WebCrates) where
  | es256 (key : w.P256Key)
  | ed25519 (key : w.Ed25519Key)

namespace CredentialPublicKey

variable {w : WebCrates}

/-- The key types, algorithms and curves are those of RFC 8152. -/
def fromCose (w : WebCrates) (bytes : Bytes) : Except Refusal (CredentialPublicKey w) :=
  match w.cbor bytes with
  | none => .error .unsupportedAlgorithm
  | some value =>
    match value.mapGetInt 1, value.mapGetInt 3, value.mapGetInt (-1) with
    | some 2, some (-7), some 1 =>
      match value.mapGetLabelBytes (-2), value.mapGetLabelBytes (-3) with
      | some x, some y =>
        if x.length ≠ 32 ∨ y.length ≠ 32 then .error .unsupportedAlgorithm
        else
          match w.p256FromSec1 (4 :: (x ++ y)) with
          | some key => .ok (.es256 key)
          | none => .error .unsupportedAlgorithm
      | _, _ => .error .unsupportedAlgorithm
    | some 1, some (-8), some 6 =>
      match value.mapGetLabelBytes (-2) with
      | some x =>
        if x.length ≠ 32 then .error .unsupportedAlgorithm
        else
          match w.ed25519FromBytes x with
          | some key => .ok (.ed25519 key)
          | none => .error .unsupportedAlgorithm
      | none => .error .unsupportedAlgorithm
    | _, _, _ => .error .unsupportedAlgorithm

def verifies (self : CredentialPublicKey w) (message signature : Bytes) : Bool :=
  match self with
  | .es256 key => w.p256Verify key message signature
  | .ed25519 key => signature.length = 64 && w.ed25519Verify key message signature

/-- As a slot stores it: a tag for the algorithm, then the raw key. -/
def toStoredBytes : CredentialPublicKey w → Bytes
  | .es256 key => 1 :: w.p256ToSec1 key
  | .ed25519 key => 2 :: w.ed25519ToBytes key

def fromStoredBytes (w : WebCrates) (bytes : Bytes) : Except Refusal (CredentialPublicKey w) :=
  match bytes with
  | 1 :: rest =>
    match w.p256FromSec1 rest with
    | some key => .ok (.es256 key)
    | none => .error .unsupportedAlgorithm
  | 2 :: rest =>
    if rest.length ≠ 32 then .error .unsupportedAlgorithm
    else
      match w.ed25519FromBytes rest with
      | some key => .ok (.ed25519 key)
      | none => .error .unsupportedAlgorithm
  | _ => .error .unsupportedAlgorithm

end CredentialPublicKey

structure AuthenticatorData where
  rpIdHash : Bytes
  flags : UInt8
  signCount : ℕ
  rest : Bytes

namespace AuthenticatorData

def parse (bytes : Bytes) : Except Refusal AuthenticatorData :=
  if bytes.length < 37 then .error .authenticatorDataTooShort
  else
    .ok ⟨bytes.take 32, bytes.getD 32 0, Wire.ofBe ((bytes.drop 33).take 4), bytes.drop 37⟩

def userPresent (self : AuthenticatorData) : Bool := self.flags &&& 1 ≠ 0

def userVerified (self : AuthenticatorData) : Bool := self.flags &&& 4 ≠ 0

def hasAttestedCredential (self : AuthenticatorData) : Bool := self.flags &&& 64 ≠ 0

end AuthenticatorData

namespace WebCrates

variable (w : WebCrates)

/-- Padding is taken off, and an empty text names no bytes. -/
def decodeB64 (s : String) : Option Bytes :=
  if s = "" then none else w.decodeUrlSafe (String.ofList (s.toList.rdropWhile (· = '=')))

def field (body : JsonValue) (name : String) : Option Bytes := (body.str name).bind w.decodeB64

/-- The challenge that client data says it answers. -/
def challengeIn (clientDataJson : Bytes) : Option Bytes :=
  (w.json clientDataJson).bind fun value => (value.str "challenge").bind w.decodeB64

/-- The challenge is compared as it is written. -/
def checkClientData (rp : RelyingParty) (clientDataJson : Bytes) (expectedType : String)
    (expectedChallenge : Bytes) : Except Refusal Unit :=
  match w.json clientDataJson with
  | none => .error .clientDataUnparseable
  | some client =>
    if client.str "type" ≠ some expectedType then .error .wrongCeremonyType
    else if client.str "challenge" ≠ some (w.encodeUrlSafe expectedChallenge) then
      .error .challengeMismatch
    else if (client.str "origin").getD "" ∉ rp.allowedOrigins then .error .originNotAllowed
    else .ok ()

def checkAuthenticatorData (rp : RelyingParty) (authData : AuthenticatorData) :
    Except Refusal Unit :=
  if authData.rpIdHash ≠ w.sha256 (utf8 rp.rpId) then .error .rpIdHashMismatch
  else if !authData.userPresent then .error .userNotPresent
  else if !authData.userVerified then .error .userNotVerified
  else .ok ()

/-- The credential in attested data: an identifier of sixteen bytes, the length
of the credential's id, the id, and a COSE key. -/
def attestedCredential (rest : Bytes) : Except Refusal (Bytes × CredentialPublicKey w) :=
  if rest.length < 18 then .error .noAttestedCredential
  else
    let idEnd := 18 + Wire.ofBe ((rest.drop 16).take 2)
    if rest.length < idEnd then .error .noAttestedCredential
    else
      match CredentialPublicKey.fromCose w (rest.drop idEnd) with
      | .error e => .error e
      | .ok key => .ok ((rest.take idEnd).drop 18, key)

def verifyRegistration (rp : RelyingParty)
    (expectedChallenge clientDataJson attestationObject : Bytes) :
    Except Refusal (Bytes × CredentialPublicKey w) :=
  match w.checkClientData rp clientDataJson "webauthn.create" expectedChallenge with
  | .error e => .error e
  | .ok () =>
    match (w.cbor attestationObject).bind fun value => value.mapGetBytes "authData" with
    | none => .error .attestationUnparseable
    | some authDataBytes =>
      match AuthenticatorData.parse authDataBytes with
      | .error e => .error e
      | .ok authData =>
        match w.checkAuthenticatorData rp authData with
        | .error e => .error e
        | .ok () =>
          if !authData.hasAttestedCredential then .error .noAttestedCredential
          else w.attestedCredential authData.rest

/-- What the authenticator signs. -/
def signedBytes (authenticatorData clientDataJson : Bytes) : Bytes :=
  authenticatorData ++ w.sha256 clientDataJson

/-- The signature counter of an assertion that holds. -/
def verifyAssertion (rp : RelyingParty) (expectedChallenge id : Bytes)
    (key : CredentialPublicKey w) (response : UnlockBody) : Except Refusal ℕ :=
  if response.credentialId ≠ id then .error .wrongCredential
  else
    match w.checkClientData rp response.clientDataJson "webauthn.get" expectedChallenge with
    | .error e => .error e
    | .ok () =>
      match AuthenticatorData.parse response.authenticatorData with
      | .error e => .error e
      | .ok authData =>
        match w.checkAuthenticatorData rp authData with
        | .error e => .error e
        | .ok () =>
          if key.verifies (w.signedBytes response.authenticatorData response.clientDataJson)
            response.signature then .ok authData.signCount
          else .error .badSignature

/-- The verifiers as the ceremony uses them, a key being what a slot stores. -/
def webAuthn : WebAuthn where
  challengeIn := w.challengeIn
  verifyRegistration rp challenge clientDataJson attestationObject :=
    match w.verifyRegistration rp challenge clientDataJson attestationObject with
    | .error _ => none
    | .ok (id, key) => some ⟨id, key.toStoredBytes⟩
  readableKey bytes := (CredentialPublicKey.fromStoredBytes w bytes).isOk
  verifyAssertion rp challenge credential response :=
    match CredentialPublicKey.fromStoredBytes w credential.storedKey with
    | .error _ => false
    | .ok key => (w.verifyAssertion rp challenge credential.id key response).isOk

def registerBody (body : Bytes) : Body RegisterBody :=
  match w.json body with
  | none => .unreadable
  | some value =>
    match w.field value "client_data_json", w.field value "attestation_object",
      w.field value "prf_output", w.field value "credential_id" with
    | some clientData, some attestation, some prfOutput, some credentialId =>
      .complete ⟨clientData, attestation, prfOutput, credentialId⟩
    | _, _, _, _ => .incomplete

def unlockBody (body : Bytes) : Body UnlockBody :=
  match w.json body with
  | none => .unreadable
  | some value =>
    match w.field value "credential_id", w.field value "authenticator_data",
      w.field value "client_data_json", w.field value "signature", w.field value "prf_output" with
    | some credentialId, some authenticatorData, some clientData, some signature, some prfOutput =>
      .complete ⟨credentialId, authenticatorData, clientData, signature, prfOutput⟩
    | _, _, _, _, _ => .incomplete

end WebCrates

/-- A request as it is read from a connection. -/
structure PageRequest where
  method : String
  path : String
  origin : Option String
  body : Bytes
  deriving DecidableEq

def PageRequest.endpoint (w : WebCrates) (self : PageRequest) : Endpoint :=
  if self.method = "GET" then
    if self.path = "/" then .page else .unknown false
  else if self.method = "POST" then
    if self.path = "/begin" then .begin
    else if self.path = "/register/evaluate" then .registerEvaluate
    else if self.path = "/register/finish" then .registerFinish (w.registerBody self.body)
    else if self.path = "/unlock/finish" then .unlockFinish (w.unlockBody self.body)
    else .unknown true
  else .unsupported

def PageRequest.read (w : WebCrates) (self : PageRequest) : CeremonyRequest :=
  ⟨self.origin, self.endpoint w⟩

section Assertions

variable {w : WebCrates} {rp : RelyingParty} {challenge : Bytes}

/-- An assertion over the challenge by the holder of the key, `signed` being all
that has been signed with which key. -/
structure Asserted (w : WebCrates) (signed : CredentialPublicKey w → Bytes → Prop)
    (rp : RelyingParty) (challenge : Bytes) (key : CredentialPublicKey w)
    (response : UnlockBody) : Prop where
  client : ∃ client, w.json response.clientDataJson = some client ∧
    client.str "type" = some "webauthn.get" ∧
    client.str "challenge" = some (w.encodeUrlSafe challenge) ∧
    (client.str "origin").getD "" ∈ rp.allowedOrigins
  length : 37 ≤ response.authenticatorData.length
  rpIdHash : response.authenticatorData.take 32 = w.sha256 (utf8 rp.rpId)
  userPresent : response.authenticatorData.getD 32 0 &&& 1 ≠ 0
  userVerified : response.authenticatorData.getD 32 0 &&& 4 ≠ 0
  signature : signed key (w.signedBytes response.authenticatorData response.clientDataJson)

/-- No signature holds under a key for what was not signed with it. -/
def Unforgeable (w : WebCrates) (signed : CredentialPublicKey w → Bytes → Prop) : Prop :=
  ∀ key message signature, CredentialPublicKey.verifies key message signature = true →
    signed key message

theorem checkClientData_ok {clientDataJson : Bytes} {expectedType : String}
    (h : w.checkClientData rp clientDataJson expectedType challenge = .ok ()) :
    ∃ client, w.json clientDataJson = some client ∧ client.str "type" = some expectedType ∧
      client.str "challenge" = some (w.encodeUrlSafe challenge) ∧
      (client.str "origin").getD "" ∈ rp.allowedOrigins := by
  unfold WebCrates.checkClientData at h
  split at h
  · cases h
  rename_i client hclient
  split at h
  · cases h
  rename_i htype
  split at h
  · cases h
  rename_i hchallenge
  split at h
  · cases h
  rename_i horigin
  exact ⟨client, hclient, not_not.mp htype, not_not.mp hchallenge, not_not.mp horigin⟩

theorem checkAuthenticatorData_ok {authData : AuthenticatorData}
    (h : w.checkAuthenticatorData rp authData = .ok ()) :
    authData.rpIdHash = w.sha256 (utf8 rp.rpId) ∧ authData.userPresent = true ∧
      authData.userVerified = true := by
  unfold WebCrates.checkAuthenticatorData at h
  split at h
  · cases h
  rename_i hhash
  split at h
  · cases h
  rename_i hpresent
  split at h
  · cases h
  rename_i hverified
  exact ⟨not_not.mp hhash, by simpa using hpresent, by simpa using hverified⟩

theorem parse_ok {bytes : Bytes} {authData : AuthenticatorData}
    (h : AuthenticatorData.parse bytes = .ok authData) :
    37 ≤ bytes.length ∧ authData.rpIdHash = bytes.take 32 ∧ authData.flags = bytes.getD 32 0 := by
  unfold AuthenticatorData.parse at h
  split at h
  · cases h
  rename_i hlen
  cases h
  exact ⟨Nat.not_lt.mp hlen, rfl, rfl⟩

/-- An assertion that is accepted was made, over this challenge and for this
relying party. -/
theorem verifyAssertion_ok {signed : CredentialPublicKey w → Bytes → Prop}
    (hforge : Unforgeable w signed) {id : Bytes} {key : CredentialPublicKey w}
    {response : UnlockBody} {count : ℕ}
    (h : w.verifyAssertion rp challenge id key response = .ok count) :
    response.credentialId = id ∧ Asserted w signed rp challenge key response := by
  unfold WebCrates.verifyAssertion at h
  split at h
  · cases h
  rename_i hid
  split at h
  · cases h
  rename_i hclient
  split at h
  · cases h
  rename_i authData hparse
  split at h
  · cases h
  rename_i hauth
  split at h
  swap
  · cases h
  rename_i hsignature
  obtain ⟨hlength, hhash, hflags⟩ := parse_ok hparse
  obtain ⟨hrp, hpresent, hverified⟩ := checkAuthenticatorData_ok hauth
  simp only [AuthenticatorData.userPresent, AuthenticatorData.userVerified, hflags,
    decide_eq_true_eq] at hpresent hverified
  refine ⟨not_not.mp hid, ?_⟩
  constructor
  · exact checkClientData_ok hclient
  · exact hlength
  · rw [← hhash, hrp]
  · exact hpresent
  · exact hverified
  · exact hforge key _ response.signature hsignature

/-- What the ceremony learns from a verifier that accepts. -/
theorem webAuthn_verifyAssertion {signed : CredentialPublicKey w → Bytes → Prop}
    (hforge : Unforgeable w signed) {credential : RegisteredCredential} {response : UnlockBody}
    (h : w.webAuthn.verifyAssertion rp challenge credential response = true) :
    ∃ key, CredentialPublicKey.fromStoredBytes w credential.storedKey = .ok key ∧
      Asserted w signed rp challenge key response := by
  simp only [WebCrates.webAuthn] at h
  split at h
  · cases h
  rename_i key hkey
  cases hverified : w.verifyAssertion rp challenge credential.id key response with
  | error e =>
    rw [hverified] at h
    cases h
  | ok count => exact ⟨key, hkey, (verifyAssertion_ok hforge hverified).2⟩

end Assertions

end Daemon

end CacheWarden
