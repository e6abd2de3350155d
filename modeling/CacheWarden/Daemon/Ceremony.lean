import CacheWarden.Daemon.Handler
import CacheWarden.SystemClock

/-!
# The passkey ceremony

A page on loopback runs WebAuthn in a browser and posts back what the
authenticator produced. A registration is accepted while a window is armed, an
unlock while the vault is closed, and each answers a challenge that was issued
for its purpose. Parsing and verifying the browser's answers is outside this
model.
-/

set_option autoImplicit false

namespace CacheWarden

namespace Daemon

open Vault

section Challenges

inductive Purpose where
  | registerPasskey
  | unlock (vaultId : VaultId) (dekGeneration : UInt64)
  deriving DecidableEq

structure ChallengeRecord where
  purpose : Purpose
  expiresAt : Instant
  deriving DecidableEq

inductive ChallengeError where
  | unknown
  | wrongPurpose
  | tooMany
  deriving DecidableEq

def challengeTtl : Duration := Duration.fromSecs 120

def maxOutstanding : ℕ := 32

structure ChallengeStore where
  outstanding : List (Bytes × ChallengeRecord)
  deriving DecidableEq

namespace ChallengeStore

def dropExpired (self : ChallengeStore) (now : Instant) : ChallengeStore :=
  ⟨self.outstanding.filter fun p => now < p.2.expiresAt⟩

def remove (self : ChallengeStore) (challenge : Bytes) : ChallengeStore :=
  ⟨self.outstanding.filter fun p => p.1 ≠ challenge⟩

def issue (self : ChallengeStore) (instants : Instants) (bytes : Bytes) (purpose : Purpose) :
    Except ChallengeError Bytes × ChallengeStore :=
  let self := self.dropExpired (instants.now 0)
  if maxOutstanding ≤ self.outstanding.length then (.error .tooMany, self)
  else
    (.ok bytes,
      ⟨(bytes, ⟨purpose, (instants.now 1).add challengeTtl⟩) :: (self.remove bytes).outstanding⟩)

/-- The challenge is gone whatever it was issued for. -/
def redeem (self : ChallengeStore) (now : Instant) (challenge : Bytes) (purpose : Purpose) :
    Except ChallengeError Unit × ChallengeStore :=
  let self := self.dropExpired now
  match self.outstanding.lookup challenge with
  | none => (.error .unknown, self)
  | some record =>
    if record.expiresAt ≤ now then (.error .unknown, self.remove challenge)
    else if record.purpose ≠ purpose then (.error .wrongPurpose, self.remove challenge)
    else (.ok (), self.remove challenge)

end ChallengeStore

def ChallengeError.message : ChallengeError → String
  | .unknown => "that challenge is not outstanding"
  | .wrongPurpose => "that challenge was issued for a different operation"
  | .tooMany => "too many ceremonies are already in progress; finish or abandon one and retry"

end Challenges

section Browser

structure RelyingParty where
  rpId : String
  allowedOrigins : List String
  deriving DecidableEq

/-- The credential of a registration: its id and the stored form of its key. -/
structure RegisteredCredential where
  id : Bytes
  storedKey : Bytes
  deriving DecidableEq

structure RegisterBody where
  clientDataJson : Bytes
  attestationObject : Bytes
  prfOutput : Bytes
  credentialId : Bytes
  deriving DecidableEq

structure UnlockBody where
  credentialId : Bytes
  authenticatorData : Bytes
  clientDataJson : Bytes
  signature : Bytes
  prfOutput : Bytes
  deriving DecidableEq

/-- The body of a request, once its JSON and its fields have been decoded. -/
inductive Body (α : Type) where
  | unreadable
  | incomplete
  | complete (a : α)

/-- The WebAuthn checks: the challenge that client data names, and the verifiers
of a registration and of an assertion. -/
structure WebAuthn where
  challengeIn : Bytes → Option Bytes
  verifyRegistration : RelyingParty → Bytes → Bytes → Bytes → Option RegisteredCredential
  readableKey : Bytes → Bool
  verifyAssertion : RelyingParty → Bytes → RegisteredCredential → UnlockBody → Bool

inductive Endpoint where
  | page
  | begin
  | registerEvaluate
  | registerFinish (body : Body RegisterBody)
  | unlockFinish (body : Body UnlockBody)
  | unknown (posted : Bool)
  | unsupported

structure CeremonyRequest where
  origin : Option String
  endpoint : Endpoint

inductive CeremonyReply where
  | refused (status : ℕ) (message : String)
  | page
  | register (rpId : String) (salt : Key) (challenge : Bytes)
  | unlock (rpId : String) (salts : List (Bytes × Key)) (challenge : Bytes)
  | evaluate (rpId : String) (challenge : Bytes)
  | registered (slotId : SlotId)
  | unlocked (entriesRestored : ℕ)
  | panicked
  deriving DecidableEq

end Browser

def registrationWindow : Duration := Duration.fromSecs 300

structure ArmedRegistration where
  salt : Key
  label : String
  expiresAt : Instant
  deriving DecidableEq

/-- `poisoned` once a request has panicked with the lock of the ceremony. -/
structure Ceremony where
  challenges : ChallengeStore
  rp : RelyingParty
  armed : Option ArmedRegistration
  poisoned : Bool
  deriving DecidableEq

/-- What a request of the ceremony meets: the time, what is drawn for it, the
header of a closed vault as it was last read, and how the vault answers. -/
structure CeremonyCtx where
  instants : Instants
  clock : SystemClock
  wall : ℕ → UInt64
  challenge : Bytes
  slot : SlotDraws
  held : HeaderView
  commit : CommitOutcome
  opened : Except VaultError Unit

namespace Ceremony

def new (rp : RelyingParty) : Ceremony := ⟨⟨[]⟩, rp, none, false⟩

/-- `vault add-passkey`, once it has been approved. -/
def armRegistration (self : Ceremony) (now : Instant) (salt : Key) (label : String) : Ceremony :=
  if self.poisoned then self
  else { self with armed := some ⟨salt, label, now.add registrationWindow⟩ }

/-- Close a window that has run out. -/
def lapse (self : Ceremony) (now : Instant) : Ceremony :=
  match self.armed with
  | some a => if a.expiresAt ≤ now then { self with armed := none } else self
  | none => self

def withChallenges (self : Ceremony) (challenges : ChallengeStore) : Ceremony :=
  { self with challenges := challenges }

/-- Answer with a challenge, if one can be issued. -/
def issuing (self : Ceremony) (instants : Instants) (bytes : Bytes) (purpose : Purpose)
    (reply : Bytes → CeremonyReply) : CeremonyReply × Ceremony :=
  match self.challenges.issue instants bytes purpose with
  | (.ok challenge, challenges) => (reply challenge, self.withChallenges challenges)
  | (.error e, challenges) => (.refused 429 e.message, self.withChallenges challenges)

def passkeySlots (header : HeaderView) : List Slot :=
  header.slots.filter fun slot => slot.kind = .passkeyPrf

/-- The window is looked at twice, and must not have run out in between. -/
def begin (ctx : CeremonyCtx) (self : Ceremony) (s : State) : CeremonyReply × Ceremony :=
  let self := self.lapse (ctx.instants.now 0)
  if self.armed.isSome then
    let self := self.lapse (ctx.instants.now 1)
    match self.armed with
    | none => (.panicked, { self with poisoned := true })
    | some a =>
      self.issuing (ctx.instants.after 2) ctx.challenge .registerPasskey
        (.register self.rp.rpId a.salt)
  else
    match s.vault with
    | some .locked =>
      let slots := passkeySlots ctx.held
      if slots.isEmpty then
        (.refused 400 "no passkey is registered for this vault; unlock with a recovery code and register one",
          self)
      else
        self.issuing (ctx.instants.after 1) ctx.challenge
          (.unlock ctx.held.vaultId ctx.held.dekGeneration)
          (.unlock self.rp.rpId (slots.map fun slot => (slot.credentialId, slot.salt)))
    | some (.unlocked _) => (.refused 400 "the vault is already unlocked", self)
    | _ => (.refused 400 "no vault has been created yet", self)

def registerEvaluate (ctx : CeremonyCtx) (self : Ceremony) : CeremonyReply × Ceremony :=
  let self := self.lapse (ctx.instants.now 0)
  if self.armed.isNone then (.refused 403 "no registration is in progress", self)
  else
    self.issuing (ctx.instants.after 1) ctx.challenge .registerPasskey (.evaluate self.rp.rpId)

section Finish

variable (c : Crypto) (web : WebAuthn)

/-- Verify the answer of a registration: the credential, and the challenges
left. -/
def verifiedRegistration (ctx : CeremonyCtx) (self : Ceremony) (body : RegisterBody) :
    Except CeremonyReply RegisteredCredential × Ceremony :=
  match web.challengeIn body.clientDataJson with
  | none => (.error (.refused 400 "the response named no challenge"), self)
  | some challenge =>
    match self.challenges.redeem (ctx.instants.now 1) challenge .registerPasskey with
    | (.error _, challenges) =>
      (.error (.refused 403 "that ceremony is no longer valid"), self.withChallenges challenges)
    | (.ok (), challenges) =>
      let self := self.withChallenges challenges
      match web.verifyRegistration self.rp challenge body.clientDataJson body.attestationObject with
      | none => (.error (.refused 403 "the passkey could not be registered"), self)
      | some credential =>
        if credential.id ≠ body.credentialId then
          (.error (.refused 400 "the response named a different credential"), self)
        else (.ok credential, self)

/-- The slot is salted from the window that is open now. -/
def registerFinish (ctx : CeremonyCtx) (self : Ceremony) (s : State) (body : Body RegisterBody) :
    CeremonyReply × Ceremony × State :=
  let self := self.lapse (ctx.instants.now 0)
  match self.armed with
  | none => (.refused 403 "no registration is in progress", self, s)
  | some a =>
    match body with
    | .unreadable => (.refused 400 "the response was not readable", self, s)
    | .incomplete => (.refused 400 "the response was incomplete", self, s)
    | .complete body =>
      match self.verifiedRegistration web ctx body with
      | (.error reply, self) => (reply, self, s)
      | (.ok credential, self) =>
        match s.openVault with
        | none => (.refused 400 "the vault must be unlocked to register a passkey", self, s)
        | some vault =>
          let added := vault.addPasskeySlot c (Stored.commitTo ctx.commit) ctx.slot body.prfOutput
            a.salt self.rp.rpId credential.id credential.storedKey a.label s.file
          match added.1 with
          | .ok slotId =>
            (.registered slotId, { self with armed := none }, s.withVault added.2.1 added.2.2)
          | .error _ =>
            (.refused 500 "the passkey was not registered", self,
              s.withVault added.2.1 added.2.2)

/-- The readings with which the entries are restored come last. -/
def unlockFinish (ctx : CeremonyCtx) (self : Ceremony) (s : State) (body : Body UnlockBody) :
    CeremonyReply × Ceremony × State :=
  match body with
  | .unreadable => (.refused 400 "the response was not readable", self, s)
  | .incomplete => (.refused 400 "the response was incomplete", self, s)
  | .complete body =>
    match s.vault with
    | some .locked =>
      match ctx.held.slots.find? fun slot =>
        slot.kind = .passkeyPrf && slot.credentialId = body.credentialId with
      | none => (.refused 403 "that passkey does not open this vault", self, s)
      | some slot =>
        if !web.readableKey slot.credentialPublicKey then
          (.refused 500 "this slot's credential could not be read", self, s)
        else
          match web.challengeIn body.clientDataJson with
          | none => (.refused 400 "the response named no challenge", self, s)
          | some challenge =>
            match self.challenges.redeem (ctx.instants.now 0) challenge
              (.unlock ctx.held.vaultId ctx.held.dekGeneration) with
            | (.error _, challenges) =>
              (.refused 403 "that ceremony is no longer valid", self.withChallenges challenges, s)
            | (.ok (), challenges) =>
              let self := self.withChallenges challenges
              if !web.verifyAssertion self.rp challenge
                ⟨body.credentialId, slot.credentialPublicKey⟩ body then
                (.refused 403 "that passkey did not open this vault", self, s)
              else
                match VaultState.locked.unlock ctx.opened s.file with
                | (.error _, state) =>
                  (.refused 403 "that passkey did not open this vault", self,
                    { s with vault := some state })
                | (.ok (), state) =>
                  match state.unlockedVault with
                  | none =>
                    (.refused 500 "the vault opened but its entries could not be restored", self,
                      { s with vault := some state })
                  | some vault =>
                    let installed := installVaultEntries s.store s.store.controlCap
                      (ctx.clock.readings (ctx.instants.after 1)) ctx.wall vault
                    (.unlocked installed.1, self,
                      { s with vault := some state, store := installed.2 })
    | _ => (.refused 400 "the vault is not locked", self, s)

def originAllowed (self : Ceremony) (origin : Option String) : Bool :=
  origin.all fun o => o ∈ self.rp.allowedOrigins

/-- One request of the ceremony. A posted one needs an origin that is allowed. -/
def handle (ctx : CeremonyCtx) (self : Ceremony) (s : State) (request : CeremonyRequest) :
    CeremonyReply × Ceremony × State :=
  if self.poisoned then (.refused 500 "the ceremony is unavailable", self, s)
  else
    match request.endpoint with
    | .page => (.page, self, s)
    | .unsupported => (.refused 405 "unsupported method", self, s)
    | .unknown false => (.refused 404 "no such endpoint", self, s)
    | endpoint =>
      if !self.originAllowed request.origin then
        (.refused 403 "that origin is not allowed to run this ceremony", self, s)
      else
        match endpoint with
        | .begin =>
          let begun := self.begin ctx s
          (begun.1, begun.2, s)
        | .registerEvaluate =>
          let evaluated := self.registerEvaluate ctx
          (evaluated.1, evaluated.2, s)
        | .registerFinish body => self.registerFinish c web ctx s body
        | .unlockFinish body => self.unlockFinish web ctx s body
        | _ => (.refused 404 "no such endpoint", self, s)

end Finish

end Ceremony

end Daemon

end CacheWarden
