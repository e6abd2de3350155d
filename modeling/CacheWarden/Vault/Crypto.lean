import CacheWarden.Vault.Body

/-!
# Slot keys, key wrapping and sealing

HKDF, the AEAD and X25519 come from outside the repository. They are a
parameter here, with the laws the vault relies on, and the three constructions
the vault builds from them are written over that parameter.
-/

set_option autoImplicit false

namespace CacheWarden

namespace Vault

/-- An array of fixed size. -/
abbrev Block (n : ℕ) := { bytes : Bytes // bytes.length = n }

def keyLen : ℕ := 32
def nonceLen : ℕ := 24
def tagLen : ℕ := 16

abbrev Key := Block 32
abbrev Nonce := Block 24
abbrev VaultId := Block 16
abbrev SlotId := Block 16

/-- The primitives: HKDF-SHA256 (optional salt, input, info), the AEAD (key,
nonce, associated data, text), and X25519. -/
structure Crypto where
  hkdf : Option Bytes → Bytes → Bytes → Key
  encrypt : Key → Nonce → Bytes → Bytes → Bytes
  decrypt : Key → Nonce → Bytes → Bytes → Option Bytes
  publicKey : Key → Key
  diffieHellman : Key → Key → Key

def zeroKey : Key := ⟨List.replicate 32 0, by simp⟩

/-- What the vault relies on: a text opens under the key and the data it was
sealed with, whatever opens is what was sealed, and two honest key pairs agree
on a shared secret that is not the identity. -/
structure Crypto.Ideal (c : Crypto) : Prop where
  decrypt_encrypt : ∀ k n aad p, c.decrypt k n aad (c.encrypt k n aad p) = some p
  decrypt_sound : ∀ k k' n aad p p', c.decrypt k' n aad (c.encrypt k n aad p) = some p' → p' = p
  length_encrypt : ∀ k n aad p, (c.encrypt k n aad p).length = p.length + 16
  agreement : ∀ a b, c.diffieHellman a (c.publicKey b) = c.diffieHellman b (c.publicKey a)
  contributory : ∀ a b, c.diffieHellman a (c.publicKey b) ≠ zeroKey

/-- `b"cw-vault-slot-kek"`. -/
def kekInfoLabel : Bytes := "cw-vault-slot-kek".toUTF8.data.toList

/-- `b"cw-vault-dek-wrap"`. -/
def dekWrapInfoLabel : Bytes := "cw-vault-dek-wrap".toUTF8.data.toList

structure WrappedDek where
  ephemeralPub : Key
  sealed : Bytes
  deriving DecidableEq

namespace Crypto

variable (c : Crypto)

def deriveKek (inputSecret : Bytes) (salt : Key) (vaultId : VaultId) (formatVersion : UInt32)
    (slotId : SlotId) : Key :=
  c.hkdf (some salt.1) inputSecret
    (vaultId.1 ++ Wire.beBytes 4 formatVersion.toNat ++ slotId.1 ++ kekInfoLabel)

def «seal» (key : Key) (nonce : Nonce) (aad plaintext : Bytes) : Bytes :=
  nonce.1 ++ c.encrypt key nonce aad plaintext

def «open» (key : Key) (aad sealed : Bytes) (stage : String) : Except VaultError Bytes :=
  if sealed.length < nonceLen + tagLen then .error (.decryptFailed stage)
  else
    let nonce : Nonce := ⟨(sealed.take 24 ++ List.replicate 24 0).take 24, by simp⟩
    match c.decrypt key nonce aad (sealed.drop 24) with
    | some plaintext => .ok plaintext
    | none => .error (.decryptFailed stage)

def deriveWrapKey (shared : Key) (vaultId : VaultId) (slotId : SlotId)
    (ephemeralPub recipientPub : Key) : Key :=
  c.hkdf none shared.1
    (dekWrapInfoLabel ++ vaultId.1 ++ slotId.1 ++ ephemeralPub.1 ++ recipientPub.1)

def wrapDek (ephemeralSecret : Key) (nonce : Nonce) (dek recipientPub : Key) (vaultId : VaultId)
    (slotId : SlotId) (aad : Bytes) : Except VaultError WrappedDek :=
  let ephemeralPub := c.publicKey ephemeralSecret
  let shared := c.diffieHellman ephemeralSecret recipientPub
  if shared = zeroKey then .error .nonContributoryExchange
  else
    let wrapKey := c.deriveWrapKey shared vaultId slotId ephemeralPub recipientPub
    .ok ⟨ephemeralPub, c.seal wrapKey nonce aad dek.1⟩

def unwrapDek (wrapped : WrappedDek) (recipientSecret : Key) (vaultId : VaultId) (slotId : SlotId)
    (aad : Bytes) : Except VaultError Bytes :=
  let recipientPub := c.publicKey recipientSecret
  let shared := c.diffieHellman recipientSecret wrapped.ephemeralPub
  if shared = zeroKey then .error .nonContributoryExchange
  else
    let wrapKey := c.deriveWrapKey shared vaultId slotId wrapped.ephemeralPub recipientPub
    c.open wrapKey aad wrapped.sealed "wrapped DEK"

end Crypto

section Laws

variable {c : Crypto} (hc : c.Ideal)

include hc

theorem length_seal (key : Key) (nonce : Nonce) (aad plaintext : Bytes) :
    (c.seal key nonce aad plaintext).length = plaintext.length + 40 := by
  simp only [Crypto.seal, List.length_append, nonce.2, hc.length_encrypt]
  omega

theorem open_seal_eq (key key' : Key) (nonce : Nonce) (aad plaintext : Bytes) (stage : String) :
    c.open key' aad (c.seal key nonce aad plaintext) stage =
      match c.decrypt key' nonce aad (c.encrypt key nonce aad plaintext) with
      | some p => .ok p
      | none => .error (.decryptFailed stage) := by
  have hlen := length_seal hc key nonce aad plaintext
  have hnonce : (c.seal key nonce aad plaintext).take 24 = nonce.1 := by
    simp [Crypto.seal, List.take_left' nonce.2]
  have hdrop : (c.seal key nonce aad plaintext).drop 24 = c.encrypt key nonce aad plaintext := by
    simp [Crypto.seal, List.drop_left' nonce.2]
  unfold Crypto.open
  rw [if_neg (by rw [hlen, nonceLen, tagLen]; omega)]
  simp only [hnonce, hdrop, List.take_left' nonce.2]

theorem open_seal (key : Key) (nonce : Nonce) (aad plaintext : Bytes) (stage : String) :
    c.open key aad (c.seal key nonce aad plaintext) stage = .ok plaintext := by
  rw [open_seal_eq hc, hc.decrypt_encrypt]

/-- A sealed text that opens at all opens to what was sealed. -/
theorem open_seal_sound {key key' : Key} {nonce : Nonce} {aad plaintext plaintext' : Bytes}
    {stage : String}
    (h : c.open key' aad (c.seal key nonce aad plaintext) stage = .ok plaintext') :
    plaintext' = plaintext := by
  rw [open_seal_eq hc] at h
  split at h
  · rename_i p hp
    cases h
    exact hc.decrypt_sound _ _ _ _ _ _ hp
  · cases h

theorem wrapDek_ok (ephemeralSecret recipientSecret dek : Key) (nonce : Nonce) (vaultId : VaultId)
    (slotId : SlotId) (aad : Bytes) :
    c.wrapDek ephemeralSecret nonce dek (c.publicKey recipientSecret) vaultId slotId aad =
      .ok ⟨c.publicKey ephemeralSecret,
        c.seal (c.deriveWrapKey
          (c.diffieHellman ephemeralSecret (c.publicKey recipientSecret)) vaultId slotId
          (c.publicKey ephemeralSecret) (c.publicKey recipientSecret)) nonce aad dek.1⟩ := by
  simp [Crypto.wrapDek, hc.contributory]

/-- What was wrapped to a recipient's public key is unwrapped by its secret. -/
theorem unwrapDek_wrapDek {ephemeralSecret recipientSecret dek : Key} {nonce : Nonce}
    {vaultId : VaultId} {slotId : SlotId} {aad : Bytes} {wrapped : WrappedDek}
    (h : c.wrapDek ephemeralSecret nonce dek (c.publicKey recipientSecret) vaultId slotId aad =
      .ok wrapped) :
    c.unwrapDek wrapped recipientSecret vaultId slotId aad = .ok dek.1 := by
  rw [wrapDek_ok hc] at h
  cases h
  simp only [Crypto.unwrapDek, hc.contributory, if_false]
  rw [hc.agreement recipientSecret ephemeralSecret]
  exact open_seal hc _ _ _ _ _

end Laws

section Plain

theorem length_padded (bytes : Bytes) : ((bytes ++ List.replicate 32 0).take 32).length = 32 := by
  simp

theorem length_agreed (a b : Key) :
    (1 :: (List.zipWith (· + ·) a.1 b.1).tail).length = 32 := by
  simp [a.2, b.2]

/-- Primitives that hide nothing: the tag is half the key, and a shared secret
is the sum of the two keys. -/
def plainCrypto : Crypto where
  hkdf _ input _ := ⟨(input ++ List.replicate 32 0).take 32, length_padded input⟩
  encrypt key _ _ text := key.1.take 16 ++ text
  decrypt key _ _ text := if text.take 16 = key.1.take 16 then some (text.drop 16) else none
  publicKey key := key
  diffieHellman a b := ⟨1 :: (List.zipWith (· + ·) a.1 b.1).tail, length_agreed a b⟩

/-- The laws can be met. -/
theorem plainCrypto_ideal : plainCrypto.Ideal where
  decrypt_encrypt k n aad p := by
    have hlen : (k.1.take 16).length = 16 := by simp [k.2]
    simp [plainCrypto, List.take_left' hlen, List.drop_left' hlen]
  decrypt_sound k k' n aad p p' h := by
    have hlen : (k.1.take 16).length = 16 := by simp [k.2]
    simp only [plainCrypto, List.take_left' hlen, List.drop_left' hlen] at h
    split at h
    · exact (Option.some.inj h).symm
    · cases h
  length_encrypt k n aad p := by
    simp only [plainCrypto, List.length_append, List.length_take, k.2]
    omega
  agreement a b := by
    apply Subtype.ext
    have hcomm : List.zipWith (· + ·) a.1.tail b.1.tail = List.zipWith (· + ·) b.1.tail a.1.tail :=
      List.zipWith_comm_of_comm UInt8.add_comm
    simp [plainCrypto, hcomm]
  contributory a b h := by
    have hhead := congrArg (fun key : Key => key.1.head?) h
    simp [plainCrypto, zeroKey] at hhead

end Plain

end Vault

end CacheWarden
