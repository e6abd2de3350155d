import CacheWarden.Vault.Crypto
import CacheWarden.Lib.Reader

/-!
# The vault file, byte by byte

A plaintext header with the recipient slots, then the sealed body. The writer
narrows every length to its field; the reader checks each against a limit.
-/

set_option autoImplicit false

namespace CacheWarden

namespace Vault

open Wire (Reader)

/-- `b"CWVAULT\\0"`. -/
def magic : Bytes := [0x43, 0x57, 0x56, 0x41, 0x55, 0x4C, 0x54, 0x00]

def formatVersion : UInt32 := 2
def minSupportedVersion : UInt32 := 2
def maxSlots : ℕ := 1024
def maxSlotFieldLen : ℕ := 64 * 1024
def maxBodyLen : ℕ := 64 * 1024 * 1024
def maxFileLen : ℕ := maxBodyLen + 16 * 1024 * 1024

inductive AeadAlg where
  | xChaCha20Poly1305
  deriving DecidableEq

inductive KdfAlg where
  | hkdfSha256
  deriving DecidableEq

inductive SlotKind where
  | passkeyPrf
  | recovery
  deriving DecidableEq

def AeadAlg.id : AeadAlg → ℕ
  | .xChaCha20Poly1305 => 1

def AeadAlg.fromId (id : ℕ) : Except VaultError AeadAlg :=
  if id = 1 then .ok .xChaCha20Poly1305 else .error (.unsupportedAlgorithm "aead_alg_id" id)

def KdfAlg.id : KdfAlg → ℕ
  | .hkdfSha256 => 1

def KdfAlg.fromId (id : ℕ) : Except VaultError KdfAlg :=
  if id = 1 then .ok .hkdfSha256 else .error (.unsupportedAlgorithm "kdf_alg_id" id)

def SlotKind.id : SlotKind → ℕ
  | .passkeyPrf => 1
  | .recovery => 2

def SlotKind.fromId (id : ℕ) : Except VaultError SlotKind :=
  if id = 1 then .ok .passkeyPrf
  else if id = 2 then .ok .recovery
  else .error (.unknownSlotKind id)

def utf8 (s : String) : Bytes := s.toUTF8.data.toList

def fromUtf8 (bytes : Bytes) : Option String := String.fromUTF8? ⟨bytes.toArray⟩

structure Slot where
  id : SlotId
  kind : SlotKind
  pubkey : Key
  salt : Key
  createdAtEpochMs : UInt64
  wrappedPrivkey : Bytes
  wrappedDek : WrappedDek
  rpId : String
  credentialId : Bytes
  label : String
  credentialPublicKey : Bytes
  deriving DecidableEq

structure VaultFile where
  formatVersion : UInt32
  vaultId : VaultId
  dekGeneration : UInt64
  aeadAlg : AeadAlg
  kdfAlg : KdfAlg
  slots : List Slot
  sealedBody : Bytes
  deriving DecidableEq

structure HeaderView where
  formatVersion : UInt32
  vaultId : VaultId
  dekGeneration : UInt64
  aeadAlg : AeadAlg
  kdfAlg : KdfAlg
  slots : List Slot
  deriving DecidableEq

def VaultFile.header (self : VaultFile) : HeaderView :=
  ⟨self.formatVersion, self.vaultId, self.dekGeneration, self.aeadAlg, self.kdfAlg, self.slots⟩

/-- The length is narrowed to 32 bits by a bare cast. -/
def putBlob (bytes : Bytes) : Bytes := Wire.beBytes 4 bytes.length ++ bytes

namespace Slot

def bindingAad (vaultId : VaultId) (formatVersion : UInt32) (slotId : SlotId) (kind : SlotKind)
    (pubkey : Key) : Bytes :=
  vaultId.1 ++ Wire.beBytes 4 formatVersion.toNat ++ slotId.1 ++ Wire.beBytes 2 kind.id ++ pubkey.1

def ownBindingAad (self : Slot) (vaultId : VaultId) (formatVersion : UInt32) : Bytes :=
  bindingAad vaultId formatVersion self.id self.kind self.pubkey

def encode (self : Slot) : Bytes :=
  self.id.1 ++ (Wire.beBytes 2 self.kind.id ++ (self.pubkey.1 ++ (self.salt.1 ++
    (Wire.beBytes 8 self.createdAtEpochMs.toNat ++ (putBlob self.wrappedPrivkey ++
      (self.wrappedDek.ephemeralPub.1 ++ (putBlob self.wrappedDek.sealed ++
        (putBlob (utf8 self.rpId) ++ (putBlob self.credentialId ++
          (putBlob (utf8 self.label) ++ putBlob self.credentialPublicKey))))))))))

end Slot

def HeaderView.encode (self : HeaderView) : Bytes :=
  magic ++ (Wire.beBytes 4 self.formatVersion.toNat ++ (self.vaultId.1 ++
    (Wire.beBytes 8 self.dekGeneration.toNat ++ (Wire.beBytes 2 self.aeadAlg.id ++
      (Wire.beBytes 2 self.kdfAlg.id ++ (Wire.beBytes 4 self.slots.length ++
        self.slots.flatMap Slot.encode))))))

def encodeFile (header sealedBody : Bytes) : Bytes :=
  header ++ Wire.beBytes 8 sealedBody.length ++ sealedBody

def takeArray (n : ℕ) : Reader VaultError (Block n) := fun cursor =>
  match h : Wire.take n cursor with
  | none => .error .truncated
  | some (head, tail) => .ok (⟨head, (Wire.take_some h).2⟩, tail)

/-- A big-endian word of `width` bytes. -/
def takeWord (width : ℕ) : Reader VaultError ℕ := do
  let word ← Reader.bytes .truncated width
  return Wire.ofBe word

def takeU16 : Reader VaultError ℕ := takeWord 2
def takeU32 : Reader VaultError ℕ := takeWord 4
def takeU64 : Reader VaultError ℕ := takeWord 8

def checkFieldLen (field : String) (len limit : ℕ) : Except VaultError Unit :=
  if len > limit then .error (.fieldTooLarge field len) else .ok ()

def takeBlob (field : String) : Reader VaultError Bytes := do
  let len ← takeU32
  let _ ← Reader.ofExcept (checkFieldLen field len maxSlotFieldLen)
  Reader.bytes .truncated len

def checkUtf8 (bytes : Bytes) : Except VaultError String :=
  match fromUtf8 bytes with
  | some text => .ok text
  | none => .error (.malformed "a text field is not valid UTF-8")

def takeUtf8 (field : String) : Reader VaultError String := do
  let bytes ← takeBlob field
  Reader.ofExcept (checkUtf8 bytes)

def Slot.decode : Reader VaultError Slot := do
  let id ← takeArray 16
  let kindId ← takeU16
  let kind ← Reader.ofExcept (SlotKind.fromId kindId)
  let pubkey ← takeArray 32
  let salt ← takeArray 32
  let createdAtEpochMs ← takeU64
  let wrappedPrivkey ← takeBlob "wrapped_privkey"
  let ephemeralPub ← takeArray 32
  let sealed ← takeBlob "wrapped_dek"
  let rpId ← takeUtf8 "rp_id"
  let credentialId ← takeBlob "credential_id"
  let label ← takeUtf8 "label"
  let credentialPublicKey ← takeBlob "credential_public_key"
  return { id := id, kind := kind, pubkey := pubkey, salt := salt
           createdAtEpochMs := UInt64.ofNat createdAtEpochMs
           wrappedPrivkey := wrappedPrivkey
           wrappedDek := ⟨ephemeralPub, sealed⟩
           rpId := rpId, credentialId := credentialId, label := label
           credentialPublicKey := credentialPublicKey }

def checkMagic (found : Bytes) : Except VaultError Unit :=
  if found ≠ magic then .error .badMagic else .ok ()

def checkVersion (version : ℕ) : Except VaultError UInt32 :=
  if minSupportedVersion.toNat ≤ version ∧ version ≤ formatVersion.toNat then
    .ok (UInt32.ofNat version)
  else .error (.unsupportedVersion version)

def checkSlotCount (count : ℕ) : Except VaultError Unit :=
  if count = 0 then .error (.malformed "a vault with no slots can never be opened")
  else checkFieldLen "slot_count" count maxSlots

/-- Each slot is compared with those before it. -/
def checkSlotIds (slots : List Slot) : Except VaultError Unit :=
  if (slots.map Slot.id).Nodup then .ok () else .error (.malformed "two slots share one slot_id")

def HeaderView.decode : Reader VaultError HeaderView := do
  let found ← Reader.bytes .truncated 8
  let _ ← Reader.ofExcept (checkMagic found)
  let version ← takeU32
  let formatVersion ← Reader.ofExcept (checkVersion version)
  let vaultId ← takeArray 16
  let dekGeneration ← takeU64
  let aeadId ← takeU16
  let aeadAlg ← Reader.ofExcept (AeadAlg.fromId aeadId)
  let kdfId ← takeU16
  let kdfAlg ← Reader.ofExcept (KdfAlg.fromId kdfId)
  let slotCount ← takeU32
  let _ ← Reader.ofExcept (checkSlotCount slotCount)
  let slots ← Reader.replicate Slot.decode slotCount
  let _ ← Reader.ofExcept (checkSlotIds slots)
  return { formatVersion := formatVersion, vaultId := vaultId
           dekGeneration := UInt64.ofNat dekGeneration
           aeadAlg := aeadAlg, kdfAlg := kdfAlg, slots := slots }

def checkBodyLen (len : ℕ) : Except VaultError Unit :=
  match checkFieldLen "body_len" len maxBodyLen with
  | .error e => .error e
  | .ok () =>
    if len < nonceLen + tagLen then
      .error (.malformed "body is too short to hold a nonce and an authentication tag")
    else .ok ()

def takeBody : Reader VaultError Bytes := do
  let len ← takeU64
  let _ ← Reader.ofExcept (checkBodyLen len)
  Reader.bytes .truncated len

/-- The file, with the header bytes that authenticate its body. -/
def VaultFile.decode (bytes : Bytes) : Except VaultError (VaultFile × Bytes) :=
  match HeaderView.decode.run bytes with
  | .error e => .error e
  | .ok (header, cursor) =>
    match takeBody.run cursor with
    | .error e => .error e
    | .ok (sealedBody, rest) =>
      if rest ≠ [] then .error (.malformed "trailing bytes after the vault body")
      else
        .ok ({ formatVersion := header.formatVersion, vaultId := header.vaultId
               dekGeneration := header.dekGeneration, aeadAlg := header.aeadAlg
               kdfAlg := header.kdfAlg, slots := header.slots, sealedBody := sealedBody },
          bytes.take (bytes.length - cursor.length))

end Vault

end CacheWarden
