import CacheWarden.Vault.Readback

/-!
# The files a vault writes

A vault is created, mutated with commits that may fail, and opened again from
its file. The ledger of a run keeps every state a commit was given, and every
slot that was built, with the secret it was built for. Here an open succeeds
under the key and the data of the seal only, and fresh keys are distinct.
-/

set_option autoImplicit false

namespace CacheWarden

namespace Vault

open Transition

/-- What opens was sealed under the same key, against the same data. -/
structure Crypto.Exclusive (c : Crypto) : Prop where
  decrypt_exclusive : ∀ k k' n aad aad' p p',
    c.decrypt k' n aad' (c.encrypt k n aad p) = some p' → k' = k ∧ aad' = aad ∧ p' = p

theorem open_seal_exclusive {c : Crypto} (hc : c.Exclusive) {key key' : Key} {nonce : Nonce}
    {aad aad' plaintext plaintext' : Bytes} {stage : String}
    (h : c.open key' aad' (c.seal key nonce aad plaintext) stage = .ok plaintext') :
    key' = key ∧ aad' = aad ∧ plaintext' = plaintext := by
  have hnonce : (c.seal key nonce aad plaintext).take 24 = nonce.1 := by
    simp [Crypto.seal, List.take_left' nonce.2]
  have hdrop : (c.seal key nonce aad plaintext).drop 24 = c.encrypt key nonce aad plaintext := by
    simp [Crypto.seal, List.drop_left' nonce.2]
  unfold Crypto.open at h
  split at h
  · cases h
  simp only [hnonce, hdrop, List.take_left' nonce.2] at h
  split at h
  · rename_i p hp
    cases h
    exact hc.decrypt_exclusive _ _ _ _ _ _ _ hp
  · cases h

/-- The ways into a vault: a secret for the slots of a kind, or a data key that
was handed over. -/
inductive Unlocking where
  | secret (inputSecret : Bytes) (kind : SlotKind)
  | dataKey (dek : Bytes)

namespace LockedVault

variable (c : Crypto) (serde : BodySerde) (self : LockedVault)

def unlockWithDek (dek : Bytes) : Except VaultError UnlockedVault :=
  match blockOf 32 dek with
  | none => .error (.malformed "a handed-off data key was not 32 bytes")
  | some key =>
    match c.open key self.headerAad self.file.sealedBody "contents" with
    | .error e => .error e
    | .ok plaintext =>
      match parseEntries serde plaintext with
      | .error e => .error e
      | .ok entries =>
        .ok { vaultId := self.file.vaultId, formatVersion := self.file.formatVersion
              dekGeneration := self.file.dekGeneration, aeadAlg := self.file.aeadAlg
              kdfAlg := self.file.kdfAlg, slots := self.file.slots, dek := key
              entries := entries.1, keyed := keyed_collected entries }

def unlockBy : Unlocking → Except VaultError UnlockedVault
  | .secret inputSecret kind => self.unlockWithSecret c serde inputSecret kind
  | .dataKey dek => self.unlockWithDek c serde dek

end LockedVault

/-- A vault that was opened has the file's header, and its data key opens the
file's body against the header's bytes. -/
structure LockedVault.Opened (c : Crypto) (locked : LockedVault) (v : UnlockedVault) : Prop where
  header : v.header = locked.file.header
  body : ∃ plaintext, c.open v.dek locked.headerAad locked.file.sealedBody "contents" =
    .ok plaintext

namespace LockedVault

variable {c : Crypto} {serde : BodySerde} {locked : LockedVault} {v : UnlockedVault}

theorem opened_of_unlockSlot {slot : Slot} {privkey : Bytes}
    (h : locked.unlockSlot c serde slot privkey = .ok v) : locked.Opened c v := by
  unfold unlockSlot at h
  simp only at h
  split at h
  · cases h
  split at h
  · cases h
  split at h
  · cases h
  split at h
  · cases h
  rename_i plaintext hplaintext
  split at h
  · cases h
  · cases h
    exact ⟨rfl, plaintext, hplaintext⟩

theorem opened_of_trySlots {inputSecret : Bytes} {kind : SlotKind} {slots : List Slot}
    (h : locked.trySlots c serde inputSecret kind slots = .ok v) : locked.Opened c v := by
  induction slots with
  | nil => cases h
  | cons slot rest ih =>
    unfold trySlots at h
    split at h
    · exact ih h
    split at h
    · exact ih h
    · exact opened_of_unlockSlot h

theorem opened_of_unlockWithDek {dek : Bytes} (h : locked.unlockWithDek c serde dek = .ok v) :
    locked.Opened c v := by
  unfold unlockWithDek at h
  split at h
  · cases h
  split at h
  · cases h
  rename_i plaintext hplaintext
  split at h
  · cases h
  · cases h
    exact ⟨rfl, plaintext, hplaintext⟩

theorem opened_of_unlockBy {u : Unlocking} (h : locked.unlockBy c serde u = .ok v) :
    locked.Opened c v := by
  cases u with
  | secret inputSecret kind => exact opened_of_trySlots h
  | dataKey dek => exact opened_of_unlockWithDek h

/-- A body opens under the key and the header it was sealed with, and no other. -/
theorem Opened.sealed (hc : c.Exclusive) (h : locked.Opened c v) {w : UnlockedVault}
    {nonce : Nonce} (hbody : locked.file.sealedBody = w.sealedBody c serde nonce) :
    v.dek = w.dek ∧ locked.headerAad = w.header.encode := by
  obtain ⟨plaintext, hopen⟩ := h.body
  rw [hbody] at hopen
  obtain ⟨hdek, haad, -⟩ := open_seal_exclusive hc hopen
  exact ⟨hdek, haad⟩

end LockedVault

/-- A slot as it was built, the secret it was built for, and its private key. -/
structure Minted where
  slot : Slot
  secret : Bytes
  recipient : Key

/-- A file a commit was to write. -/
abbrev Written := UnlockedVault × Nonce

/-- The open vault, the disk, and what a run has given to its commits and built. -/
structure Ledger where
  vault : UnlockedVault
  disk : Disk
  written : List Written
  minted : List Minted

/-- One commit to the file, recorded. -/
def ledgerCommit (c : Crypto) (serde : BodySerde) (nonce : Nonce) (faults : Faults) :
    Commit (Disk × List Written) := fun next w =>
  let outcome := Storage.commit faults (next.encodeWithDek c serde nonce) w.1
  (outcome.result, outcome.disk, w.2 ++ [(next, nonce)])

namespace Mutation

def mint (c : Crypto) (self : UnlockedVault) (draws : SlotDraws) (kind : SlotKind)
    (secret : Bytes) (salt : Key) (rpId : String) (credentialId credentialPublicKey : Bytes)
    (label : String) : List Minted :=
  match UnlockedVault.buildSlot c draws kind self.dek self.vaultId self.formatVersion secret salt
    rpId credentialId credentialPublicKey label with
  | .ok slot => [⟨slot, secret, draws.recipientSecret⟩]
  | .error _ => []

/-- The slot the mutation builds. -/
def mints (c : Crypto) (self : UnlockedVault) : Mutation → List Minted
  | .addRecoverySlot draws code salt label =>
    mint c self draws .recovery code.1 salt "" [] [] label
  | .addPasskeySlot draws prfOutput salt rpId credentialId credentialPublicKey label =>
    mint c self draws .passkeyPrf prfOutput salt rpId credentialId credentialPublicKey label
  | _ => []

/-- The data key the mutation draws. -/
def newDek : Mutation → Option Key
  | .removeSlot draws _ => some draws.dek
  | .rotateDek draws => some draws.dek
  | _ => none

end Mutation

inductive LedgerEvent where
  | mutate (a : Attempt)
  | reopen (u : Unlocking)

namespace Ledger

variable (c : Crypto) (serde : BodySerde)

def attempt (self : Ledger) (a : Attempt) :
    Except VaultError Unit × UnlockedVault × (Disk × List Written) :=
  a.mutation.apply c (ledgerCommit c serde a.bodyNonce a.faults) a.checkMs a.writeMs self.vault
    (self.disk, self.written)

def step (self : Ledger) : LedgerEvent → Ledger
  | .mutate a =>
    { vault := (self.attempt c serde a).2.1
      disk := (self.attempt c serde a).2.2.1
      written := (self.attempt c serde a).2.2.2
      minted := self.minted ++ a.mutation.mints c self.vault }
  | .reopen u =>
    match LockedVault.open self.disk.file with
    | .error _ => self
    | .ok locked =>
      match locked.unlockBy c serde u with
      | .error _ => self
      | .ok vault => { self with vault := vault }

/-- The ledger right after a vault was created. -/
def opening (vault : UnlockedVault) (draws : UnlockedVault.InitialDraws) (d : Disk) : Ledger where
  vault := vault
  disk := d
  written := [(vault, draws.bodyNonce)]
  minted := vault.slots.map fun slot => ⟨slot, draws.code.1, draws.slot.recipientSecret⟩

/-- Every file a commit was to write, as one that reads it finds it. -/
def files (self : Ledger) : List LockedVault :=
  self.written.map fun w => lockedOf c serde w.2 w.1

/-- Fresh keys and identifiers are distinct from those before them. -/
def Permitted (self : Ledger) : LedgerEvent → Prop
  | .mutate a =>
    (∀ dek ∈ a.mutation.newDek, ∀ w ∈ self.written, w.1.dek ≠ dek) ∧
      ∀ m ∈ a.mutation.mints c self.vault, ∀ m' ∈ self.minted,
        m.slot.pubkey ≠ m'.slot.pubkey ∧ m.slot.id ≠ m'.slot.id
  | .reopen _ => True

end Ledger

/-- A state that a mutation has a commit write: other entries, one slot more, or
the slots, or all but one of them, under a new data key. -/
inductive Revised (c : Crypto) (self : UnlockedVault) : Mutation → UnlockedVault → Prop
  | entries {m : Mutation} {next : UnlockedVault} (hheader : next.header = self.header)
      (hdek : next.dek = self.dek) : Revised c self m next
  | added {m : Mutation} {minted : Minted} (hminted : minted ∈ m.mints c self) :
      Revised c self m { self with slots := self.slots ++ [minted.slot] }
  | rotated {m : Mutation} {draws : RotationDraws} {base slots : List Slot}
      (hdraws : m.newDek = some draws.dek) (hbase : base.Sublist self.slots)
      (hslots : UnlockedVault.rewrap c draws self.vaultId self.formatVersion 0 base = .ok slots) :
      Revised c self m
        { self with slots := slots, dek := draws.dek, dekGeneration := self.dekGeneration + 1 }

/-- The vault with its slots wrapped to a new data key. -/
def UnlockedVault.rotated (self : UnlockedVault) (draws : RotationDraws) (slots : List Slot) :
    UnlockedVault :=
  { self with slots := slots, dek := draws.dek, dekGeneration := self.dekGeneration + 1 }

section Revisions

variable {W : Type} {c : Crypto} {commit : Commit W} {t u : UInt64} {self : UnlockedVault} {w : W}

theorem upsert_revised (e : VaultEntry) (token : Option ClaimToken) :
    Attempted commit (Revised c self (.upsert e token)) self w
      (self.upsert commit t u e token w) := by
  unfold UnlockedVault.upsert UnlockedVault.writeEntry
  simp only
  split
  · exact commitThen_attempted (.entries rfl rfl) _
  · split
    · exact .refused _
    · exact commitThen_attempted (.entries rfl rfl) _

theorem upsertCas_revised (e : VaultEntry) (expected : UInt64) (token : Option ClaimToken) :
    Attempted commit (Revised c self (.upsertCas e expected token)) self w
      (self.upsertCas commit t u e expected token w) := by
  unfold UnlockedVault.upsertCas UnlockedVault.writeEntry
  simp only
  split
  · exact .refused _
  split
  · exact commitThen_attempted (.entries rfl rfl) _
  · split
    · exact .refused _
    · exact commitThen_attempted (.entries rfl rfl) _

theorem claimRefresh_revised (key : String) (expected : UInt64) (ttl : Duration)
    (mint : ClaimToken) :
    Attempted commit (Revised c self (.claimRefresh key expected ttl mint)) self w
      (self.claimRefresh commit t mint key expected ttl w) := by
  unfold UnlockedVault.claimRefresh
  split
  · exact .refused _
  split
  · exact .refused _
  split
  · exact .refused _
  · exact commitThen_attempted (.entries rfl rfl) _

theorem releaseClaim_revised (key : String) (token : ClaimToken) :
    Attempted commit (Revised c self (.releaseClaim key token)) self w
      (self.releaseClaim commit t key token w) := by
  unfold UnlockedVault.releaseClaim
  split
  · exact .refused _
  split
  · split
    · exact .settled () (.entries rfl rfl)
    · exact commitThen_attempted (.entries rfl rfl) _
  · split
    · exact commitThen_attempted (.entries rfl rfl) _
    · exact .refused _

theorem delete_revised (key : String) :
    Attempted commit (Revised c self (.delete key)) self w (self.delete commit key w) := by
  unfold UnlockedVault.delete
  split
  · exact .settled false (.entries rfl rfl)
  · exact commitThen_attempted (.entries rfl rfl) _

theorem addRecoverySlot_revised (draws : SlotDraws) (code salt : Key) (label : String) :
    Attempted commit (Revised c self (.addRecoverySlot draws code salt label)) self w
      (self.addRecoverySlot c commit draws code salt label w) := by
  unfold UnlockedVault.addRecoverySlot
  split
  · exact .refused _
  · rename_i slot hbuilt
    have hminted : (⟨slot, code.1, draws.recipientSecret⟩ : Minted) ∈
        (Mutation.addRecoverySlot draws code salt label).mints c self := by
      simp [Mutation.mints, Mutation.mint, hbuilt]
    exact commitThen_attempted (.added hminted) _

theorem addPasskeySlot_revised (draws : SlotDraws) (prfOutput : Bytes) (salt : Key)
    (rpId : String) (credentialId credentialPublicKey : Bytes) (label : String) :
    Attempted commit (Revised c self (.addPasskeySlot draws prfOutput salt rpId credentialId
        credentialPublicKey label)) self w
      (self.addPasskeySlot c commit draws prfOutput salt rpId credentialId credentialPublicKey label
        w) := by
  unfold UnlockedVault.addPasskeySlot
  split
  · exact .refused _
  split
  · exact .refused _
  · rename_i slot hbuilt
    have hminted : (⟨slot, prfOutput, draws.recipientSecret⟩ : Minted) ∈
        (Mutation.addPasskeySlot draws prfOutput salt rpId credentialId credentialPublicKey
          label).mints c self := by
      simp [Mutation.mints, Mutation.mint, hbuilt]
    exact commitThen_attempted (.added hminted) _

theorem rotateOnto_revised {m : Mutation} (draws : RotationDraws) {base : List Slot}
    (hdraws : m.newDek = some draws.dek) (hbase : base.Sublist self.slots) :
    Attempted commit (Revised c self m) self w (self.rotateOnto c commit draws base w) := by
  unfold UnlockedVault.rotateOnto
  split
  · exact .refused _
  · rename_i slots hslots
    exact commitThen_attempted (.rotated hdraws hbase hslots) _

theorem removeSlot_revised (draws : RotationDraws) (id : SlotId) :
    Attempted commit (Revised c self (.removeSlot draws id)) self w
      (self.removeSlot c commit draws id w) := by
  unfold UnlockedVault.removeSlot
  split
  · exact .refused _
  split
  · exact .refused _
  · exact rotateOnto_revised draws rfl (List.eraseIdx_sublist ..)

theorem apply_revised (m : Mutation) (w : W) :
    Attempted commit (Revised c self m) self w (m.apply c commit t u self w) := by
  cases m with
  | upsert e token => exact attempted_discard (upsert_revised e token)
  | upsertCas e expected token => exact attempted_discard (upsertCas_revised e expected token)
  | claimRefresh key expected ttl mint =>
    exact attempted_discard (claimRefresh_revised key expected ttl mint)
  | releaseClaim key token => exact releaseClaim_revised key token
  | delete key => exact attempted_discard (delete_revised key)
  | addRecoverySlot draws code salt label =>
    exact attempted_discard (addRecoverySlot_revised draws code salt label)
  | addPasskeySlot draws prfOutput salt rpId credentialId credentialPublicKey label =>
    exact attempted_discard (addPasskeySlot_revised draws prfOutput salt rpId credentialId
      credentialPublicKey label)
  | removeSlot draws id => exact removeSlot_revised draws id
  | rotateDek draws => exact rotateOnto_revised draws rfl (List.Sublist.refl _)

end Revisions

namespace Ledger

variable {c : Crypto} {serde : BodySerde} {l : Ledger}

/-- What becomes of the ledger: nothing, a file written, or a file that may have
been written though the commit failed. -/
inductive Recorded (c : Crypto) (serde : BodySerde) (l : Ledger) (a : Attempt) :
    Except VaultError Unit × UnlockedVault × (Disk × List Written) → Prop
  | unwritten (result : Except VaultError Unit) :
      Recorded c serde l a (result, l.vault, l.disk, l.written)
  | landed {next : UnlockedVault} {disk : Disk} (h : Revised c l.vault a.mutation next)
      (hdisk : disk.file = some (next.encodeWithDek c serde a.bodyNonce)) :
      Recorded c serde l a (.ok (), next, disk, l.written ++ [(next, a.bodyNonce)])
  | failed (e : VaultError) {next : UnlockedVault} {disk : Disk}
      (h : Revised c l.vault a.mutation next)
      (hdisk : disk.file = l.disk.file ∨
        disk.file = some (next.encodeWithDek c serde a.bodyNonce)) :
      Recorded c serde l a (.error e, l.vault, disk, l.written ++ [(next, a.bodyNonce)])

theorem attempt_recorded (l : Ledger) (a : Attempt) :
    Recorded c serde l a (l.attempt c serde a) := by
  have happly := @apply_revised _ c (ledgerCommit c serde a.bodyNonce a.faults) a.checkMs a.writeMs
    l.vault a.mutation (l.disk, l.written)
  have hcommit := fun next => Storage.commit_file a.faults
    (UnlockedVault.encodeWithDek c serde a.bodyNonce next) l.disk
  unfold attempt
  generalize a.mutation.apply c (ledgerCommit c serde a.bodyNonce a.faults) a.checkMs a.writeMs
    l.vault (l.disk, l.written) = result at happly
  cases happly with
  | refused e => exact .unwritten _
  | settled x h => exact .unwritten _
  | landed x next h hok => exact .landed h ((hcommit next).2.2 hok)
  | failed e next h herr => exact .failed e h (hcommit next).2.1

end Ledger

/-- The slot was built for the secret, with the private key sealed in it. -/
structure Minted.Formed (c : Crypto) (vaultId : VaultId) (formatVersion : UInt32) (m : Minted) :
    Prop where
  pubkey : m.slot.pubkey = c.publicKey m.recipient
  wrapped : ∃ nonce, m.slot.wrappedPrivkey =
    c.seal (c.deriveKek m.secret m.slot.salt vaultId formatVersion m.slot.id) nonce
      (m.slot.ownBindingAad vaultId formatVersion) m.recipient.1

/-- The slot is one that was built, and what is wrapped in it is the data key. -/
def Slot.Carries (c : Crypto) (vaultId : VaultId) (formatVersion : UInt32) (minted : List Minted)
    (dek : Key) (slot : Slot) : Prop :=
  (∃ m ∈ minted, SameButWrap m.slot slot) ∧
    ∃ ephemeralSecret nonce, c.wrapDek ephemeralSecret nonce dek slot.pubkey vaultId slot.id
      (slot.ownBindingAad vaultId formatVersion) = .ok slot.wrappedDek

/-- Every slot of the vault carries its data key. -/
structure UnlockedVault.Backed (c : Crypto) (vaultId : VaultId) (formatVersion : UInt32)
    (minted : List Minted) (v : UnlockedVault) : Prop where
  sameVault : v.vaultId = vaultId
  sameVersion : v.formatVersion = formatVersion
  slots : ∀ slot ∈ v.slots, slot.Carries c vaultId formatVersion minted v.dek
  ids : (v.slots.map Slot.id).Nodup

/-- The run's slots differ in their keys, and every file has slots out of them. -/
structure Ledger.Accounted (c : Crypto) (serde : BodySerde) (vaultId : VaultId)
    (formatVersion : UInt32) (l : Ledger) : Prop where
  vault : l.vault.Backed c vaultId formatVersion l.minted
  written : ∀ w ∈ l.written, w.1.Backed c vaultId formatVersion l.minted
  formed : ∀ m ∈ l.minted, m.Formed c vaultId formatVersion
  pubkeys : (l.minted.map fun m => m.slot.pubkey).Nodup
  ids : (l.minted.map fun m => m.slot.id).Nodup
  disk : ∃ w ∈ l.written, l.disk.file = some (w.1.encodeWithDek c serde w.2)

section Keeping

variable {c : Crypto} {serde : BodySerde} {vaultId : VaultId} {formatVersion : UInt32}
  {minted minted' : List Minted} {v : UnlockedVault}

theorem SameButWrap.id {slot slot' : Slot} (h : SameButWrap slot slot') : slot'.id = slot.id := by
  obtain ⟨wrapped, rfl⟩ := h
  rfl

theorem SameButWrap.pubkey {slot slot' : Slot} (h : SameButWrap slot slot') :
    slot'.pubkey = slot.pubkey := by
  obtain ⟨wrapped, rfl⟩ := h
  rfl

theorem SameButWrap.trans {slot slot' slot'' : Slot} (h : SameButWrap slot slot')
    (h' : SameButWrap slot' slot'') : SameButWrap slot slot'' := by
  obtain ⟨wrapped, rfl⟩ := h
  obtain ⟨wrapped', rfl⟩ := h'
  exact ⟨wrapped', rfl⟩

theorem Slot.Carries.mono {dek : Key} {slot : Slot}
    (h : slot.Carries c vaultId formatVersion minted dek) (hsub : minted ⊆ minted') :
    slot.Carries c vaultId formatVersion minted' dek := by
  obtain ⟨⟨m, hm, hsame⟩, hwrap⟩ := h
  exact ⟨⟨m, hsub hm, hsame⟩, hwrap⟩

theorem UnlockedVault.Backed.mono (h : v.Backed c vaultId formatVersion minted)
    (hsub : minted ⊆ minted') : v.Backed c vaultId formatVersion minted' where
  sameVault := h.sameVault
  sameVersion := h.sameVersion
  slots slot hslot := (h.slots slot hslot).mono hsub
  ids := h.ids

theorem buildSlot_formed {draws : SlotDraws} {kind : SlotKind} {dek : Key} {secret : Bytes}
    {salt : Key} {rpId : String} {credentialId credentialPublicKey : Bytes} {label : String}
    {slot : Slot}
    (h : UnlockedVault.buildSlot c draws kind dek vaultId formatVersion secret salt rpId
      credentialId credentialPublicKey label = .ok slot) :
    (⟨slot, secret, draws.recipientSecret⟩ : Minted).Formed c vaultId formatVersion ∧
      ∃ ephemeralSecret nonce, c.wrapDek ephemeralSecret nonce dek slot.pubkey vaultId slot.id
        (slot.ownBindingAad vaultId formatVersion) = .ok slot.wrappedDek := by
  unfold UnlockedVault.buildSlot at h
  simp only at h
  split at h
  · cases h
  · rename_i wrapped hwrap
    cases h
    exact ⟨⟨rfl, draws.privkeyNonce, rfl⟩, draws.ephemeralSecret, draws.dekNonce, hwrap⟩

theorem mint_formed {draws : SlotDraws} {kind : SlotKind} {secret : Bytes} {salt : Key}
    {rpId : String} {credentialId credentialPublicKey : Bytes} {label : String} {m : Minted}
    (h : m ∈ Mutation.mint c v draws kind secret salt rpId credentialId credentialPublicKey
      label) :
    m.Formed c v.vaultId v.formatVersion ∧
      ∃ ephemeralSecret nonce, c.wrapDek ephemeralSecret nonce v.dek m.slot.pubkey v.vaultId
        m.slot.id (m.slot.ownBindingAad v.vaultId v.formatVersion) = .ok m.slot.wrappedDek := by
  unfold Mutation.mint at h
  split at h
  · rename_i slot hbuilt
    rw [List.mem_singleton] at h
    subst h
    exact buildSlot_formed hbuilt
  · cases h

theorem mints_formed {mutation : Mutation} {m : Minted} (h : m ∈ mutation.mints c v) :
    m.Formed c v.vaultId v.formatVersion ∧
      ∃ ephemeralSecret nonce, c.wrapDek ephemeralSecret nonce v.dek m.slot.pubkey v.vaultId
        m.slot.id (m.slot.ownBindingAad v.vaultId v.formatVersion) = .ok m.slot.wrappedDek := by
  cases mutation with
  | addRecoverySlot draws code salt label => exact mint_formed h
  | addPasskeySlot draws prfOutput salt rpId credentialId credentialPublicKey label =>
    exact mint_formed h
  | _ => cases h

theorem mints_length (mutation : Mutation) : (mutation.mints c v).length ≤ 1 := by
  have hmint : ∀ draws kind secret salt rpId credentialId credentialPublicKey label,
      (Mutation.mint c v draws kind secret salt rpId credentialId credentialPublicKey
        label).length ≤ 1 := by
    intro draws kind secret salt rpId credentialId credentialPublicKey label
    unfold Mutation.mint
    split <;> simp
  cases mutation with
  | addRecoverySlot draws code salt label => exact hmint _ _ _ _ _ _ _ _
  | addPasskeySlot draws prfOutput salt rpId credentialId credentialPublicKey label =>
    exact hmint _ _ _ _ _ _ _ _
  | _ => exact Nat.zero_le _

/-- A rotation wraps its data key to slots that are otherwise the same. -/
theorem rewrap_carries {draws : RotationDraws} {i : ℕ} {base slots : List Slot}
    (h : UnlockedVault.rewrap c draws vaultId formatVersion i base = .ok slots) :
    List.Forall₂ (fun slot slot' => SameButWrap slot slot' ∧
      ∃ ephemeralSecret nonce, c.wrapDek ephemeralSecret nonce draws.dek slot'.pubkey vaultId
        slot'.id (slot'.ownBindingAad vaultId formatVersion) = .ok slot'.wrappedDek)
      base slots := by
  induction base generalizing i slots with
  | nil =>
    cases h
    exact .nil
  | cons slot rest ih =>
    unfold UnlockedVault.rewrap at h
    split at h
    · cases h
    rename_i wrapped hwrap
    split at h
    · cases h
    rename_i rest' hrest
    cases h
    exact .cons ⟨⟨wrapped, rfl⟩, _, _, hwrap⟩ (ih hrest)

/-- A state written from a backed one is backed, by the slots there are then. -/
theorem UnlockedVault.Backed.revised {mutation : Mutation} {next : UnlockedVault}
    (h : v.Backed c vaultId formatVersion minted) (hrevised : Revised c v mutation next)
    (hfresh : ∀ m ∈ mutation.mints c v, ∀ m' ∈ minted,
      m.slot.pubkey ≠ m'.slot.pubkey ∧ m.slot.id ≠ m'.slot.id) :
    next.Backed c vaultId formatVersion (minted ++ mutation.mints c v) := by
  have hkept := h.mono (List.subset_append_left minted (mutation.mints c v))
  cases hrevised with
  | entries hheader hdek =>
    have hslots : next.slots = v.slots := congrArg HeaderView.slots hheader
    refine ⟨?_, ?_, ?_, ?_⟩
    · exact (congrArg HeaderView.vaultId hheader).trans h.sameVault
    · exact (congrArg HeaderView.formatVersion hheader).trans h.sameVersion
    · rw [hslots, hdek]
      exact hkept.slots
    · rw [hslots]
      exact h.ids
  | @added m hm =>
    obtain ⟨-, hwrap⟩ := mints_formed hm
    rw [h.sameVault, h.sameVersion] at hwrap
    refine ⟨h.sameVault, h.sameVersion, ?_, ?_⟩
    · intro slot hslot
      rcases List.mem_append.mp hslot with hold | hnew
      · exact hkept.slots slot hold
      · rw [List.mem_singleton] at hnew
        subst hnew
        exact ⟨⟨m, List.mem_append_right _ hm, m.slot.wrappedDek, rfl⟩, hwrap⟩
    · rw [List.map_append, List.nodup_append]
      refine ⟨h.ids, List.nodup_singleton _, ?_⟩
      intro a ha b hb
      obtain ⟨slot, hslot, rfl⟩ := List.mem_map.mp ha
      rw [List.map_singleton, List.mem_singleton] at hb
      subst hb
      obtain ⟨⟨m', hm', hsame⟩, -⟩ := h.slots slot hslot
      rw [hsame.id]
      exact (hfresh m hm m' hm').2.symm
  | @rotated draws base slots hdraws hbase hslots =>
    have hwraps := rewrap_carries hslots
    rw [h.sameVault, h.sameVersion] at hwraps
    refine ⟨h.sameVault, h.sameVersion, ?_, ?_⟩
    · intro slot' hslot'
      obtain ⟨i, hi, rfl⟩ := List.mem_iff_getElem.mp hslot'
      have hi' : i < base.length := by
        rw [hwraps.length_eq]
        exact hi
      obtain ⟨hsame, hwrap⟩ := hwraps.get hi' hi
      obtain ⟨⟨m, hm, hbuilt⟩, -⟩ := hkept.slots base[i] (hbase.subset (List.getElem_mem hi'))
      exact ⟨⟨m, hm, hbuilt.trans hsame⟩, hwrap⟩
    · have hids : slots.map Slot.id = base.map Slot.id := by
        clear hslots hbase
        induction hwraps with
        | nil => rfl
        | cons hslot _ ih => rw [List.map_cons, List.map_cons, ih, hslot.1.id]
      rw [hids]
      exact (hbase.map _).nodup h.ids

variable {l : Ledger}

theorem nodup_append_mints {β : Type} (f : Minted → β) {mutation : Mutation}
    (h : (minted.map f).Nodup)
    (hfresh : ∀ m ∈ mutation.mints c v, ∀ m' ∈ minted, f m ≠ f m') :
    ((minted ++ mutation.mints c v).map f).Nodup := by
  rw [List.map_append, List.nodup_append]
  refine ⟨h, ?_, ?_⟩
  · have hlength := @mints_length c v mutation
    rcases hmints : mutation.mints c v with _ | ⟨m, _ | ⟨m', rest⟩⟩
    · exact List.nodup_nil
    · exact List.nodup_singleton _
    · rw [hmints] at hlength
      simp at hlength
  · intro a ha b hb
    obtain ⟨m', hm', rfl⟩ := List.mem_map.mp ha
    obtain ⟨m, hm, rfl⟩ := List.mem_map.mp hb
    exact (hfresh m hm m' hm').symm

theorem Ledger.Accounted.mutate (h : l.Accounted c serde vaultId formatVersion) {a : Attempt}
    (hfresh : ∀ m ∈ a.mutation.mints c l.vault, ∀ m' ∈ l.minted,
      m.slot.pubkey ≠ m'.slot.pubkey ∧ m.slot.id ≠ m'.slot.id) :
    (l.step c serde (.mutate a)).Accounted c serde vaultId formatVersion := by
  have hkept := h.vault.mono (List.subset_append_left l.minted (a.mutation.mints c l.vault))
  have hwritten : ∀ w ∈ l.written,
      w.1.Backed c vaultId formatVersion (l.minted ++ a.mutation.mints c l.vault) :=
    fun w hw => (h.written w hw).mono (List.subset_append_left _ _)
  have hformed : ∀ m ∈ l.minted ++ a.mutation.mints c l.vault,
      m.Formed c vaultId formatVersion := by
    intro m hm
    rcases List.mem_append.mp hm with hold | hnew
    · exact h.formed m hold
    · rw [← h.vault.sameVault, ← h.vault.sameVersion]
      exact (mints_formed hnew).1
  have hpubkeys := nodup_append_mints (fun m => m.slot.pubkey) h.pubkeys
    fun m hm m' hm' => (hfresh m hm m' hm').1
  have hids := nodup_append_mints (fun m => m.slot.id) h.ids
    fun m hm m' hm' => (hfresh m hm m' hm').2
  obtain ⟨w, hw, hdisk⟩ := h.disk
  have hnew : ∀ next, Revised c l.vault a.mutation next →
      ∀ w ∈ l.written ++ [(next, a.bodyNonce)],
        w.1.Backed c vaultId formatVersion (l.minted ++ a.mutation.mints c l.vault) := by
    intro next hnext w hw
    rcases List.mem_append.mp hw with hold | hlast
    · exact hwritten w hold
    · rw [List.mem_singleton] at hlast
      subst hlast
      exact h.vault.revised hnext hfresh
  have hrecorded := @Ledger.attempt_recorded c serde l a
  unfold Ledger.step
  simp only
  generalize l.attempt c serde a = result at hrecorded
  cases hrecorded with
  | unwritten _ => exact ⟨hkept, hwritten, hformed, hpubkeys, hids, w, hw, hdisk⟩
  | @landed next disk hnext hlanded =>
    exact ⟨h.vault.revised hnext hfresh, hnew next hnext, hformed, hpubkeys, hids, _,
      List.mem_append_right _ (List.mem_singleton_self _), hlanded⟩
  | @failed e next disk hnext hleft =>
    refine ⟨hkept, hnew next hnext, hformed, hpubkeys, hids, ?_⟩
    rcases hleft with hsame | hlanded
    · exact ⟨w, List.mem_append_left _ hw, hsame.trans hdisk⟩
    · exact ⟨_, List.mem_append_right _ (List.mem_singleton_self _), hlanded⟩

/-- What opens the file of a state has its slots and its data key. -/
theorem reopened_written (hc : c.Exclusive) {file : Option Bytes} {w : UnlockedVault}
    {nonce : Nonce} {locked : LockedVault} {u : Unlocking}
    (hfile : file = some (w.encodeWithDek c serde nonce))
    (hopen : LockedVault.open file = .ok locked) (hunlock : locked.unlockBy c serde u = .ok v) :
    v.header = w.header ∧ v.dek = w.dek := by
  rw [hfile] at hopen
  obtain ⟨hlocked, -⟩ := (open_written nonce).mp hopen
  have hopened := LockedVault.opened_of_unlockBy hunlock
  have hbody : locked.file.sealedBody = w.sealedBody c serde nonce := by
    rw [hlocked]
    rfl
  refine ⟨?_, (hopened.sealed hc hbody).1⟩
  rw [hopened.header, hlocked]
  rfl

theorem UnlockedVault.Backed.same {w : UnlockedVault}
    (h : w.Backed c vaultId formatVersion minted) (hheader : v.header = w.header)
    (hdek : v.dek = w.dek) : v.Backed c vaultId formatVersion minted where
  sameVault := (congrArg HeaderView.vaultId hheader).trans h.sameVault
  sameVersion := (congrArg HeaderView.formatVersion hheader).trans h.sameVersion
  slots := by
    rw [show v.slots = w.slots from congrArg HeaderView.slots hheader, hdek]
    exact h.slots
  ids := by
    rw [show v.slots = w.slots from congrArg HeaderView.slots hheader]
    exact h.ids

theorem Ledger.Accounted.step (hc : c.Exclusive) (h : l.Accounted c serde vaultId formatVersion)
    {event : LedgerEvent} (hpermitted : l.Permitted c event) :
    (l.step c serde event).Accounted c serde vaultId formatVersion := by
  cases event with
  | mutate a => exact h.mutate hpermitted.2
  | reopen u =>
    unfold Ledger.step
    simp only
    split
    · exact h
    rename_i locked hopen
    split
    · exact h
    rename_i v hunlock
    obtain ⟨w, hw, hdisk⟩ := h.disk
    obtain ⟨hheader, hdek⟩ := reopened_written hc hdisk hopen hunlock
    exact ⟨(h.written w hw).same hheader hdek, h.written, h.formed, h.pubkeys, h.ids, w, hw, hdisk⟩

theorem accounted_opening {draws : UnlockedVault.InitialDraws} {faults : Faults} {d d' : Disk}
    {vault : UnlockedVault}
    (h : UnlockedVault.initializeVault c serde draws faults d = (.ok vault, d')) :
    (Ledger.opening vault draws d').Accounted c serde vault.vaultId vault.formatVersion := by
  unfold UnlockedVault.initializeVault at h
  split at h
  · cases h
  rename_i created hcreated
  simp only at h
  split at h
  · cases h
  rename_i hok
  have hfile := Storage.createNew_ok _ _ _ hok
  cases h
  unfold UnlockedVault.initial at hcreated
  split at hcreated
  · cases hcreated
  rename_i slot hbuilt
  cases hcreated
  obtain ⟨hformed, hwrap⟩ := buildSlot_formed hbuilt
  have hbacked : ∀ m ∈ [slot], m.Carries c draws.vaultId Vault.formatVersion
      [⟨slot, draws.code.1, draws.slot.recipientSecret⟩] draws.dek := by
    intro m hm
    rw [List.mem_singleton] at hm
    subst hm
    exact ⟨⟨_, List.mem_singleton_self _, m.wrappedDek, rfl⟩, hwrap⟩
  refine ⟨⟨rfl, rfl, hbacked, List.nodup_singleton _⟩, ?_, ?_, List.nodup_singleton _,
    List.nodup_singleton _, _, List.mem_singleton_self _, hfile⟩
  · intro w hw
    rw [show w = _ from List.mem_singleton.mp hw]
    exact ⟨rfl, rfl, hbacked, List.nodup_singleton _⟩
  · intro m hm
    rw [show m = _ from List.mem_singleton.mp hm]
    exact hformed

end Keeping

end Vault

end CacheWarden
