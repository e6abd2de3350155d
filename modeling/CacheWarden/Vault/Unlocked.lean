import CacheWarden.Vault.Format

/-!
# The open vault and its mutations

Every mutation builds the state it intends to write, commits that, and installs
it only when the commit returned successfully. The commit is a parameter: what
it does to the world it writes to, and whether it reports success. Random draws
and clock readings are arguments.
-/

set_option autoImplicit false

namespace CacheWarden

namespace Vault

structure UnlockedVault where
  vaultId : VaultId
  formatVersion : UInt32
  dekGeneration : UInt64
  aeadAlg : AeadAlg
  kdfAlg : KdfAlg
  slots : List Slot
  dek : Key
  entries : KeyMap VaultEntry
  keyed : ∀ (k : String) e, entries[k]? = some e → e.key = k
  deriving DecidableEq

theorem keyed_empty (k : String) (e : VaultEntry) (h : (∅ : KeyMap VaultEntry)[k]? = some e) :
    e.key = k := by
  simp at h

/-- One attempt to make a state durable. -/
abbrev Commit (W : Type) := UnlockedVault → W → Except VaultError Unit × W

/-- What the creation of one slot draws and reads. -/
structure SlotDraws where
  slotId : SlotId
  recipientSecret : Key
  privkeyNonce : Nonce
  ephemeralSecret : Key
  dekNonce : Nonce
  createdAtEpochMs : UInt64
  deriving DecidableEq

/-- What a rotation draws: the new data key, and an ephemeral key pair and a
nonce for each slot. -/
structure RotationDraws where
  dek : Key
  ephemeralSecret : ℕ → Key
  nonce : ℕ → Nonce

namespace UnlockedVault

def entry (self : UnlockedVault) (key : String) : Option VaultEntry := self.entries[key]?

/-- The version of a key, zero while the vault has no entry for it. -/
def casOf (self : UnlockedVault) (key : String) : UInt64 :=
  ((self.entry key).map VaultEntry.casVersion).getD 0

def insertEntry (self : UnlockedVault) (e : VaultEntry) : UnlockedVault :=
  { self with
    entries := self.entries.insert e.key e
    keyed := by
      intro k e' h
      rw [KeyMap.get_insert] at h
      split at h
      · rename_i heq
        cases h
        exact heq
      · exact self.keyed k e' h }

def eraseEntry (self : UnlockedVault) (key : String) : UnlockedVault :=
  { self with
    entries := self.entries.erase key
    keyed := fun k e h => self.keyed k e (KeyMap.get_of_erase h) }

section Operations

variable {W : Type} (commit : Commit W)

/-- Commit, then install. -/
def commitThen {α : Type} (self next : UnlockedVault) (value : α) (w : W) :
    Except VaultError α × UnlockedVault × W :=
  match commit next w with
  | (.ok (), w) => (.ok value, next, w)
  | (.error e, w) => (.error e, self, w)

/-- The single place a version is assigned. -/
def writeEntry (now : UInt64) (self : UnlockedVault) (e : VaultEntry) (version : UInt64) (w : W) :
    Except VaultError UInt64 × UnlockedVault × W :=
  commitThen commit self
    (self.insertEntry
      { e with casVersion := version, refreshClaim := none, updatedAtEpochMs := now })
    version w

/-- The claim is checked at the first reading and the entry stamped with the
second. -/
def upsert (checkNow now : UInt64) (self : UnlockedVault) (e : VaultEntry)
    (token : Option ClaimToken) (w : W) : Except VaultError UInt64 × UnlockedVault × W :=
  let nextVersion := Word64.saturatingAdd (self.casOf e.key) 1
  match self.entry e.key with
  | none => writeEntry commit now self e nextVersion w
  | some existing =>
    match checkClaim existing token checkNow with
    | .error err => (.error err, self, w)
    | .ok () => writeEntry commit now self e nextVersion w

/-- The version is raised by a plain addition, which wraps. -/
def upsertCas (checkNow now : UInt64) (self : UnlockedVault) (e : VaultEntry)
    (expectedVersion : UInt64) (token : Option ClaimToken) (w : W) :
    Except VaultError UInt64 × UnlockedVault × W :=
  let currentVersion := self.casOf e.key
  if currentVersion ≠ expectedVersion then (.error (.casMismatch currentVersion), self, w)
  else
    match self.entry e.key with
    | none => writeEntry commit now self e (currentVersion + 1) w
    | some existing =>
      match checkClaim existing token checkNow with
      | .error err => (.error err, self, w)
      | .ok () => writeEntry commit now self e (currentVersion + 1) w

/-- A lifetime that overflows the epoch gives a claim that never lapses. -/
def grantedClaim (mint : ClaimToken) (now : UInt64) (ttl : Duration) : Claim where
  token := mint
  claimedAtEpochMs := now
  expiresAtEpochMs := Word64.saturatingAdd now (millisSaturatingU64 ttl)

def claimRefresh (now : UInt64) (mint : ClaimToken) (self : UnlockedVault) (key : String)
    (expectedVersion : UInt64) (ttl : Duration) (w : W) :
    Except VaultError ClaimToken × UnlockedVault × W :=
  match self.entry key with
  | none => (.error .entryNotFound, self, w)
  | some e =>
    if e.casVersion ≠ expectedVersion then (.error (.casMismatch e.casVersion), self, w)
    else
      match e.activeClaim now with
      | some active => (.error (.alreadyClaimed active.expiresAtEpochMs), self, w)
      | none =>
        commitThen commit self
          (self.insertEntry { e with refreshClaim := some (grantedClaim mint now ttl) }) mint w

def releaseClaim (now : UInt64) (self : UnlockedVault) (key : String) (token : ClaimToken) (w : W) :
    Except VaultError Unit × UnlockedVault × W :=
  match self.entry key with
  | none => (.error .entryNotFound, self, w)
  | some e =>
    match e.activeClaim now with
    | none =>
      if e.refreshClaim.isNone then (.ok (), self, w)
      else commitThen commit self (self.insertEntry { e with refreshClaim := none }) () w
    | some active =>
      if active.token.matches token then
        commitThen commit self (self.insertEntry { e with refreshClaim := none }) () w
      else (.error .claimTokenMismatch, self, w)

def activeClaim (self : UnlockedVault) (key : String) (now : UInt64) : Option Claim :=
  (self.entry key).bind (·.activeClaim now)

def delete (self : UnlockedVault) (key : String) (w : W) :
    Except VaultError Bool × UnlockedVault × W :=
  if (self.entry key).isNone then (.ok false, self, w)
  else commitThen commit self (self.eraseEntry key) true w

end Operations

section Slots

variable (c : Crypto)

def buildSlot (draws : SlotDraws) (kind : SlotKind) (dek : Key) (vaultId : VaultId)
    (formatVersion : UInt32) (inputSecret : Bytes) (salt : Key) (rpId : String)
    (credentialId credentialPublicKey : Bytes) (label : String) : Except VaultError Slot :=
  let pubkey := c.publicKey draws.recipientSecret
  let aad := Slot.bindingAad vaultId formatVersion draws.slotId kind pubkey
  let kek := c.deriveKek inputSecret salt vaultId formatVersion draws.slotId
  let wrappedPrivkey := c.seal kek draws.privkeyNonce aad draws.recipientSecret.1
  match c.wrapDek draws.ephemeralSecret draws.dekNonce dek pubkey vaultId draws.slotId aad with
  | .error e => .error e
  | .ok wrappedDek =>
    .ok { id := draws.slotId, kind := kind, pubkey := pubkey, salt := salt
          createdAtEpochMs := draws.createdAtEpochMs
          wrappedPrivkey := wrappedPrivkey, wrappedDek := wrappedDek, rpId := rpId
          credentialId := credentialId, label := label
          credentialPublicKey := credentialPublicKey }

/-- Wrap the new data key to every slot, by their public keys. -/
def rewrap (draws : RotationDraws) (vaultId : VaultId) (formatVersion : UInt32) :
    ℕ → List Slot → Except VaultError (List Slot)
  | _, [] => .ok []
  | i, slot :: rest =>
    match c.wrapDek (draws.ephemeralSecret i) (draws.nonce i) draws.dek slot.pubkey vaultId slot.id
      (slot.ownBindingAad vaultId formatVersion) with
    | .error e => .error e
    | .ok wrapped =>
      match rewrap draws vaultId formatVersion (i + 1) rest with
      | .error e => .error e
      | .ok rest => .ok ({ slot with wrappedDek := wrapped } :: rest)

variable {W : Type} (commit : Commit W)

def addSlot (self : UnlockedVault) (slot : Slot) (w : W) :
    Except VaultError SlotId × UnlockedVault × W :=
  commitThen commit self { self with slots := self.slots ++ [slot] } slot.id w

def addRecoverySlot (draws : SlotDraws) (code salt : Key) (self : UnlockedVault) (label : String)
    (w : W) : Except VaultError SlotId × UnlockedVault × W :=
  match buildSlot c draws .recovery self.dek self.vaultId self.formatVersion code.1 salt "" [] []
    label with
  | .error e => (.error e, self, w)
  | .ok slot => addSlot commit self slot w

def addPasskeySlot (draws : SlotDraws) (self : UnlockedVault) (prfOutput : Bytes) (salt : Key)
    (rpId : String) (credentialId credentialPublicKey : Bytes) (label : String) (w : W) :
    Except VaultError SlotId × UnlockedVault × W :=
  if credentialId.isEmpty || credentialPublicKey.isEmpty then
    (.error (.malformed "a passkey slot needs both a credential id and its public key"), self, w)
  else
    match buildSlot c draws .passkeyPrf self.dek self.vaultId self.formatVersion prfOutput salt rpId
      credentialId credentialPublicKey label with
    | .error e => (.error e, self, w)
    | .ok slot => addSlot commit self slot w

/-- The generation is raised by a plain addition, which wraps. -/
def rotateOnto (draws : RotationDraws) (self : UnlockedVault) (slots : List Slot) (w : W) :
    Except VaultError Unit × UnlockedVault × W :=
  match rewrap c draws self.vaultId self.formatVersion 0 slots with
  | .error e => (.error e, self, w)
  | .ok slots =>
    commitThen commit self
      { self with slots := slots, dek := draws.dek, dekGeneration := self.dekGeneration + 1 } () w

def removeSlot (draws : RotationDraws) (self : UnlockedVault) (id : SlotId) (w : W) :
    Except VaultError Unit × UnlockedVault × W :=
  match self.slots.findIdx? (·.id = id) with
  | none => (.error .slotNotFound, self, w)
  | some index =>
    if self.slots.length = 1 then (.error .lastSlot, self, w)
    else rotateOnto c commit draws self (self.slots.eraseIdx index) w

def rotateDek (draws : RotationDraws) (self : UnlockedVault) (w : W) :
    Except VaultError Unit × UnlockedVault × W :=
  rotateOnto c commit draws self self.slots w

end Slots

end UnlockedVault

end Vault

end CacheWarden
