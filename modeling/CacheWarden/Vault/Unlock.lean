import CacheWarden.Vault.FormatRoundTrip
import CacheWarden.Vault.Storage

/-!
# Sealing the open vault and opening it again

The body is serialized, sealed under the data key against the header's bytes,
and found again by any credential whose slot opens. The JSON of the body is the
work of a serializer outside the repository.
-/

set_option autoImplicit false

namespace CacheWarden

namespace Vault

def bodyVersion : UInt32 := 1

structure VaultBody where
  bodyVersion : UInt32
  entries : List VaultEntry
  deriving DecidableEq

def VaultBody.new (entries : List VaultEntry) : VaultBody := ⟨Vault.bodyVersion, entries⟩

/-- `serde_json` on the body. -/
structure BodySerde where
  toPlaintext : VaultBody → Bytes
  fromPlaintext : Bytes → Except VaultError VaultBody

/-- The serializer loses nothing of this body. -/
def BodySerde.Lossless (serde : BodySerde) (body : VaultBody) : Prop :=
  serde.fromPlaintext (serde.toPlaintext body) = .ok body

namespace UnlockedVault

def header (self : UnlockedVault) : HeaderView :=
  ⟨self.formatVersion, self.vaultId, self.dekGeneration, self.aeadAlg, self.kdfAlg, self.slots⟩

def body (self : UnlockedVault) : VaultBody := VaultBody.new (KeyMap.values self.entries)

def plaintext (serde : BodySerde) (self : UnlockedVault) : Bytes := serde.toPlaintext self.body

def sealedBody (c : Crypto) (serde : BodySerde) (nonce : Nonce) (self : UnlockedVault) : Bytes :=
  c.seal self.dek nonce self.header.encode (self.plaintext serde)

/-- The whole file: the header, then the body sealed against its bytes. -/
def encodeWithDek (c : Crypto) (serde : BodySerde) (nonce : Nonce) (self : UnlockedVault) : Bytes :=
  encodeFile self.header.encode (self.sealedBody c serde nonce)

/-- What the creation of a vault draws. -/
structure InitialDraws where
  vaultId : VaultId
  dek : Key
  code : Key
  salt : Key
  slot : SlotDraws
  bodyNonce : Nonce

/-- The vault a creation builds before it writes it. -/
def initial (c : Crypto) (draws : InitialDraws) : Except VaultError UnlockedVault :=
  match buildSlot c draws.slot .recovery draws.dek draws.vaultId Vault.formatVersion draws.code.1
    draws.salt "" [] [] "recovery code" with
  | .error e => .error e
  | .ok slot =>
    .ok { vaultId := draws.vaultId, formatVersion := Vault.formatVersion, dekGeneration := 1
          aeadAlg := .xChaCha20Poly1305, kdfAlg := .hkdfSha256, slots := [slot], dek := draws.dek
          entries := ∅, keyed := keyed_empty }

/-- The open vault, and the disk its creation leaves. -/
def initializeVault (c : Crypto) (serde : BodySerde) (draws : InitialDraws) (faults : Faults)
    (d : Disk) : Except VaultError UnlockedVault × Disk :=
  match initial c draws with
  | .error e => (.error e, d)
  | .ok vault =>
    let outcome := Storage.createNew faults (vault.encodeWithDek c serde draws.bodyNonce) d
    match outcome.result with
    | .error e => (.error e, outcome.disk)
    | .ok () => (.ok vault, outcome.disk)

end UnlockedVault

structure LockedVault where
  file : VaultFile
  headerAad : Bytes
  deriving DecidableEq

/-- An array of fixed size out of bytes that may have another. -/
def blockOf (n : ℕ) (bytes : Bytes) : Option (Block n) :=
  if h : bytes.length = n then some ⟨bytes, h⟩ else none

theorem blockOf_some {n : ℕ} {bytes : Bytes} {block : Block n} (h : blockOf n bytes = some block) :
    bytes = block.1 := by
  unfold blockOf at h
  split at h
  · cases h
    rfl
  · cases h

/-- The entries with, at the end, those of the list, which must name new keys. -/
def collectEntries : List VaultEntry → (m : KeyMap VaultEntry) →
    (∀ (k : String) e, m[k]? = some e → e.key = k) →
    Except VaultError { m : KeyMap VaultEntry // ∀ (k : String) e, m[k]? = some e → e.key = k }
  | [], m, h => .ok ⟨m, h⟩
  | e :: es, m, h =>
    if (m[e.key]?).isSome then .error (.malformed "two entries share one key")
    else
      collectEntries es (m.insert e.key e) (by
        intro k e' hk
        rw [KeyMap.get_insert] at hk
        split at hk
        · rename_i heq
          cases hk
          exact heq
        · exact h k e' hk)

theorem keyed_collected
    (entries : { m : KeyMap VaultEntry // ∀ (k : String) e, m[k]? = some e → e.key = k }) :
    ∀ (k : String) e, entries.1[k]? = some e → e.key = k := entries.2

namespace LockedVault

/-- `storage::read` and the parse of what it read. -/
def «open» (file : Option Bytes) : Except VaultError LockedVault :=
  match file with
  | none => .error (.io .file "No such file or directory")
  | some bytes =>
    if bytes.length > maxFileLen then .error (.fileTooLarge bytes.length)
    else
      match VaultFile.decode bytes with
      | .error e => .error e
      | .ok (file, headerAad) => .ok ⟨file, headerAad⟩

variable (c : Crypto) (serde : BodySerde) (self : LockedVault)

def parseEntries (plaintext : Bytes) : Except VaultError
    { m : KeyMap VaultEntry // ∀ (k : String) e, m[k]? = some e → e.key = k } :=
  match serde.fromPlaintext plaintext with
  | .error e => .error e
  | .ok body => collectEntries body.entries ∅ keyed_empty

/-- What follows once a slot's private key is open: a failure from here on means
the file was altered. -/
def unlockSlot (slot : Slot) (privkey : Bytes) : Except VaultError UnlockedVault :=
  let vaultId := self.file.vaultId
  let formatVersion := self.file.formatVersion
  match blockOf 32 privkey with
  | none => .error (.malformed "a slot private key decrypted to something other than 32 bytes")
  | some secret =>
    match c.unwrapDek slot.wrappedDek secret vaultId slot.id
      (slot.ownBindingAad vaultId formatVersion) with
    | .error e => .error e
    | .ok dekBytes =>
      match blockOf 32 dekBytes with
      | none =>
        .error (.malformed "a wrapped DEK decrypted to something other than a 32-byte key")
      | some dek =>
        match c.open dek self.headerAad self.file.sealedBody "contents" with
        | .error e => .error e
        | .ok plaintext =>
          match parseEntries serde plaintext with
          | .error e => .error e
          | .ok entries =>
            .ok { vaultId := vaultId, formatVersion := formatVersion
                  dekGeneration := self.file.dekGeneration, aeadAlg := self.file.aeadAlg
                  kdfAlg := self.file.kdfAlg, slots := self.file.slots, dek := dek
                  entries := entries.1, keyed := keyed_collected entries }

/-- Try the secret against every slot of its kind. -/
def trySlots (inputSecret : Bytes) (kind : SlotKind) : List Slot → Except VaultError UnlockedVault
  | [] => .error .noMatchingSlot
  | slot :: rest =>
    if slot.kind ≠ kind then trySlots inputSecret kind rest
    else
      match c.open
        (c.deriveKek inputSecret slot.salt self.file.vaultId self.file.formatVersion slot.id)
        (slot.ownBindingAad self.file.vaultId self.file.formatVersion) slot.wrappedPrivkey
        "slot private key" with
      | .error _ => trySlots inputSecret kind rest
      | .ok privkey => self.unlockSlot c serde slot privkey

def unlockWithSecret (inputSecret : Bytes) (kind : SlotKind) : Except VaultError UnlockedVault :=
  self.trySlots c serde inputSecret kind self.file.slots

def unlockWithRecoveryCode (code : Key) : Except VaultError UnlockedVault :=
  self.unlockWithSecret c serde code.1 .recovery

def unlockWithPrfOutput (prfOutput : Bytes) : Except VaultError UnlockedVault :=
  self.unlockWithSecret c serde prfOutput .passkeyPrf

end LockedVault

/-- The slot was built for `secret` and its data key is `dek`: the private key
is sealed under the key derived from the secret, and the data key is wrapped to
the matching public key. -/
def Slot.Holds (c : Crypto) (vaultId : VaultId) (formatVersion : UInt32) (dek : Key)
    (slot : Slot) (secret : Bytes) : Prop :=
  ∃ recipientSecret : Key, slot.pubkey = c.publicKey recipientSecret ∧
    (∃ nonce, slot.wrappedPrivkey =
      c.seal (c.deriveKek secret slot.salt vaultId formatVersion slot.id) nonce
        (slot.ownBindingAad vaultId formatVersion) recipientSecret.1) ∧
    ∃ ephemeralSecret nonce, c.wrapDek ephemeralSecret nonce dek slot.pubkey vaultId slot.id
      (slot.ownBindingAad vaultId formatVersion) = .ok slot.wrappedDek

/-- Every slot of the vault unwraps to the key that seals the body. -/
def UnlockedVault.Wrapped (c : Crypto) (self : UnlockedVault) (credentials : List Bytes) : Prop :=
  List.Forall₂ (Slot.Holds c self.vaultId self.formatVersion self.dek) self.slots credentials

section Slots

variable {c : Crypto} (hc : c.Ideal)

include hc

theorem buildSlot_ok (draws : SlotDraws) (kind : SlotKind) (dek : Key) (vaultId : VaultId)
    (formatVersion : UInt32) (secret : Bytes) (salt : Key) (rpId : String)
    (credentialId credentialPublicKey : Bytes) (label : String) :
    ∃ slot, UnlockedVault.buildSlot c draws kind dek vaultId formatVersion secret salt rpId
        credentialId credentialPublicKey label = .ok slot ∧
      slot.Holds c vaultId formatVersion dek secret ∧
      slot.id = draws.slotId ∧ slot.kind = kind ∧ slot.rpId = rpId ∧
      slot.credentialId = credentialId ∧ slot.label = label ∧
      slot.credentialPublicKey = credentialPublicKey := by
  have hwrap := wrapDek_ok hc draws.ephemeralSecret draws.recipientSecret dek draws.dekNonce vaultId
    draws.slotId (Slot.bindingAad vaultId formatVersion draws.slotId kind
      (c.publicKey draws.recipientSecret))
  unfold UnlockedVault.buildSlot
  simp only [hwrap]
  refine ⟨_, rfl, ⟨draws.recipientSecret, rfl, ⟨draws.privkeyNonce, rfl⟩,
    draws.ephemeralSecret, draws.dekNonce, hwrap⟩, rfl, rfl, rfl, rfl, rfl, rfl⟩

/-- The parts of a slot that a rotation leaves alone. -/
def SameButWrap (slot slot' : Slot) : Prop :=
  ∃ wrapped, slot' = { slot with wrappedDek := wrapped }

theorem rewrap_ok {vaultId : VaultId} {formatVersion : UInt32} {dek : Key} {slots : List Slot}
    {credentials : List Bytes} (draws : RotationDraws)
    (h : List.Forall₂ (Slot.Holds c vaultId formatVersion dek) slots credentials) (i : ℕ) :
    ∃ slots', UnlockedVault.rewrap c draws vaultId formatVersion i slots = .ok slots' ∧
      List.Forall₂ (Slot.Holds c vaultId formatVersion draws.dek) slots' credentials ∧
      List.Forall₂ SameButWrap slots slots' := by
  induction h generalizing i with
  | nil => exact ⟨[], rfl, .nil, .nil⟩
  | @cons slot secret slots credentials hslot _ ih =>
    obtain ⟨recipientSecret, hpub, hpriv, -⟩ := hslot
    obtain ⟨slots', hrest, hholds, hsame⟩ := ih (i + 1)
    have hwrap := wrapDek_ok hc (draws.ephemeralSecret i) recipientSecret draws.dek (draws.nonce i)
      vaultId slot.id (slot.ownBindingAad vaultId formatVersion)
    rw [← hpub] at hwrap
    unfold UnlockedVault.rewrap
    simp only [hwrap, hrest]
    exact ⟨_, rfl, .cons ⟨recipientSecret, hpub, hpriv, _, _, hwrap⟩ hholds, .cons ⟨_, rfl⟩ hsame⟩

/-- A slot that holds a data key unwraps to it. -/
theorem unwrapDek_of_holds {vaultId : VaultId} {formatVersion : UInt32} {dek : Key} {slot : Slot}
    {secret : Bytes} (h : slot.Holds c vaultId formatVersion dek secret) :
    ∃ recipientSecret, slot.pubkey = c.publicKey recipientSecret ∧
      c.unwrapDek slot.wrappedDek recipientSecret vaultId slot.id
        (slot.ownBindingAad vaultId formatVersion) = .ok dek.1 := by
  obtain ⟨recipientSecret, hpub, -, ephemeralSecret, nonce, hwrap⟩ := h
  rw [hpub] at hwrap
  exact ⟨recipientSecret, hpub, unwrapDek_wrapDek hc hwrap⟩

end Slots

end Vault

end CacheWarden
