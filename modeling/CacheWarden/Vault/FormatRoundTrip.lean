import CacheWarden.Vault.Format

/-!
# What the file reader accepts

The reader accepts exactly the encodings of headers within its limits, followed
by a body within its limits, and returns what was encoded.
-/

set_option autoImplicit false

namespace CacheWarden

namespace Vault

open Wire Wire.Reader

theorem fromUtf8_utf8 (s : String) : fromUtf8 (utf8 s) = some s := by
  have h : String.fromUTF8? s.toUTF8 = some s := by
    rw [String.fromUTF8?, String.toUTF8_eq_toByteArray, dif_pos s.isValidUTF8]
    rfl
  simpa [fromUtf8, utf8] using h

theorem utf8_of_fromUtf8 {bytes : Bytes} {s : String} (h : fromUtf8 bytes = some s) :
    utf8 s = bytes := by
  unfold fromUtf8 String.fromUTF8? at h
  split at h
  · cases h
    simp [utf8, String.fromUTF8]
  · cases h

/-- Every variable field of the slot is within the reader's limit. -/
structure Slot.Fits (s : Slot) : Prop where
  wrappedPrivkey : s.wrappedPrivkey.length ≤ maxSlotFieldLen
  wrappedDek : s.wrappedDek.sealed.length ≤ maxSlotFieldLen
  rpId : (utf8 s.rpId).length ≤ maxSlotFieldLen
  credentialId : s.credentialId.length ≤ maxSlotFieldLen
  label : (utf8 s.label).length ≤ maxSlotFieldLen
  credentialPublicKey : s.credentialPublicKey.length ≤ maxSlotFieldLen

structure HeaderView.Fits (h : HeaderView) : Prop where
  version : h.formatVersion = Vault.formatVersion
  nonempty : h.slots ≠ []
  count : h.slots.length ≤ maxSlots
  slots : ∀ s ∈ h.slots, s.Fits
  ids : (h.slots.map Slot.id).Nodup

structure BodyFits (sealedBody : Bytes) : Prop where
  lower : nonceLen + tagLen ≤ sealedBody.length
  upper : sealedBody.length ≤ maxBodyLen

section Words

theorem reads_takeArray {n : ℕ} (block : Block n) : Reads (takeArray n) block.1 block := by
  intro rest
  have htake := take_append block.2 rest
  show takeArray n (block.1 ++ rest) = _
  unfold takeArray
  split
  · rename_i h
    rw [htake] at h
    cases h
  · rename_i head tail h
    simp only [htake, Option.some.injEq, Prod.mk.injEq] at h
    simp [← h.1, h.2]

theorem run_takeArray_ok {n : ℕ} {cursor rest : Bytes} {block : Block n}
    (h : (takeArray n).run cursor = .ok (block, rest)) : cursor = block.1 ++ rest := by
  change takeArray n cursor = _ at h
  unfold takeArray at h
  split at h
  · cases h
  · rename_i head tail htake
    cases h
    exact (take_some htake).1

theorem reads_takeWord {width n : ℕ} (h : n < 256 ^ width) :
    Reads (takeWord width) (beBytes width n) n := by
  have hread := reads_of_pure_bind (f := ofBe)
    (reads_bytes (VaultError.truncated) (length_beBytes width n))
  rwa [ofBe_beBytes_of_lt h] at hread

theorem run_takeWord_ok {width n : ℕ} {cursor rest : Bytes}
    (h : (takeWord width).run cursor = .ok (n, rest)) :
    cursor = beBytes width n ++ rest ∧ n < 256 ^ width := by
  obtain ⟨word, mid, hword, hpure⟩ := run_bind_ok.mp h
  obtain ⟨rfl, rfl⟩ := run_pure_ok.mp hpure
  obtain ⟨rfl, rfl⟩ := run_bytes_ok.mp hword
  exact ⟨by rw [beBytes_ofBe], ofBe_lt word⟩

theorem checkFieldLen_ok (field : String) {len limit : ℕ} :
    checkFieldLen field len limit = .ok () ↔ len ≤ limit := by
  unfold checkFieldLen
  split
  · simp only [reduceCtorEq, false_iff]
    omega
  · simp only [true_iff]
    omega

theorem reads_takeBlob (field : String) {bytes : Bytes} (h : bytes.length ≤ maxSlotFieldLen) :
    Reads (takeBlob field) (putBlob bytes) bytes := by
  have hlt : bytes.length < 256 ^ 4 := by
    unfold maxSlotFieldLen at h
    omega
  exact reads_bind (reads_takeWord hlt)
    (reads_bind_nil (reads_ofExcept ((checkFieldLen_ok field).mpr h)) (reads_bytes _ rfl))

theorem run_takeBlob_ok {field : String} {cursor rest bytes : Bytes}
    (h : (takeBlob field).run cursor = .ok (bytes, rest)) :
    cursor = putBlob bytes ++ rest ∧ bytes.length ≤ maxSlotFieldLen := by
  obtain ⟨len, mid, hlen, h⟩ := run_bind_ok.mp h
  obtain ⟨⟨⟩, mid', hcheck, h⟩ := run_bind_ok.mp h
  obtain ⟨hle, rfl⟩ := run_ofExcept_ok.mp hcheck
  obtain ⟨rfl, rfl⟩ := run_bytes_ok.mp h
  obtain ⟨rfl, -⟩ := run_takeWord_ok hlen
  exact ⟨by rw [putBlob, List.append_assoc], (checkFieldLen_ok field).mp hle⟩

theorem checkUtf8_ok {bytes : Bytes} {s : String} :
    checkUtf8 bytes = .ok s ↔ bytes = utf8 s := by
  unfold checkUtf8
  constructor
  · intro h
    split at h
    · rename_i text htext
      cases h
      exact (utf8_of_fromUtf8 htext).symm
    · cases h
  · rintro rfl
    rw [fromUtf8_utf8]

theorem reads_takeUtf8 (field : String) {s : String} (h : (utf8 s).length ≤ maxSlotFieldLen) :
    Reads (takeUtf8 field) (putBlob (utf8 s)) s := by
  have hcheck := reads_ofExcept (checkUtf8_ok.mpr (rfl : utf8 s = utf8 s))
  have hread := reads_bind (f := fun bytes => ofExcept (checkUtf8 bytes)) (reads_takeBlob field h)
    hcheck
  rwa [List.append_nil] at hread

theorem run_takeUtf8_ok {field : String} {cursor rest : Bytes} {s : String}
    (h : (takeUtf8 field).run cursor = .ok (s, rest)) :
    cursor = putBlob (utf8 s) ++ rest ∧ (utf8 s).length ≤ maxSlotFieldLen := by
  obtain ⟨bytes, mid, hblob, h⟩ := run_bind_ok.mp h
  obtain ⟨hcheck, rfl⟩ := run_ofExcept_ok.mp h
  rw [checkUtf8_ok] at hcheck
  subst hcheck
  exact run_takeBlob_ok hblob

end Words

section Ids

theorem aeadAlg_fromId_ok {id : ℕ} {alg : AeadAlg} : AeadAlg.fromId id = .ok alg ↔ id = alg.id := by
  cases alg
  unfold AeadAlg.fromId AeadAlg.id
  split <;> simp_all

theorem kdfAlg_fromId_ok {id : ℕ} {alg : KdfAlg} : KdfAlg.fromId id = .ok alg ↔ id = alg.id := by
  cases alg
  unfold KdfAlg.fromId KdfAlg.id
  split <;> simp_all

theorem slotKind_fromId_ok {id : ℕ} {kind : SlotKind} :
    SlotKind.fromId id = .ok kind ↔ id = kind.id := by
  unfold SlotKind.fromId
  split
  · cases kind <;> simp_all [SlotKind.id]
  split
  · cases kind <;> simp_all [SlotKind.id]
  · cases kind <;> simp_all [SlotKind.id]

theorem checkMagic_ok {found : Bytes} : checkMagic found = .ok () ↔ found = magic := by
  unfold checkMagic
  split <;> simp_all

theorem checkVersion_ok {version : ℕ} {v : UInt32} :
    checkVersion version = .ok v ↔ version = v.toNat ∧ v = formatVersion := by
  unfold checkVersion minSupportedVersion formatVersion
  constructor
  · intro h
    split at h
    · rename_i hrange
      have hversion : version = 2 := Nat.le_antisymm hrange.2 hrange.1
      subst hversion
      cases h
      exact ⟨rfl, rfl⟩
    · cases h
  · rintro ⟨rfl, rfl⟩
    rfl

theorem checkSlotCount_ok {count : ℕ} :
    checkSlotCount count = .ok () ↔ count ≠ 0 ∧ count ≤ maxSlots := by
  unfold checkSlotCount
  split
  · simp_all
  · rw [checkFieldLen_ok]
    simp_all

theorem checkSlotIds_ok {slots : List Slot} :
    checkSlotIds slots = .ok () ↔ (slots.map Slot.id).Nodup := by
  unfold checkSlotIds
  split <;> simp_all

theorem checkBodyLen_ok {len : ℕ} :
    checkBodyLen len = .ok () ↔ nonceLen + tagLen ≤ len ∧ len ≤ maxBodyLen := by
  unfold checkBodyLen
  split
  · rename_i e he
    have hno : ¬ len ≤ maxBodyLen := by
      rw [← checkFieldLen_ok "body_len", he]
      exact fun h => by cases h
    simp [hno]
  · rename_i hok
    rw [checkFieldLen_ok] at hok
    split
    · simp only [reduceCtorEq, false_iff]
      omega
    · simp only [true_iff]
      omega

theorem slotKind_id_lt (kind : SlotKind) : kind.id < 256 ^ 2 := by
  cases kind <;> decide

end Ids

section Slots

theorem reads_slot {s : Slot} (h : s.Fits) : Reads Slot.decode s.encode s := by
  have hcreated : s.createdAtEpochMs.toNat < 256 ^ 8 := Word64.toNat_lt _
  have hback : UInt64.ofNat s.createdAtEpochMs.toNat = s.createdAtEpochMs := UInt64.ofNat_toNat
  unfold Slot.decode Slot.encode
  refine reads_bind (reads_takeArray s.id) ?_
  refine reads_bind (reads_takeWord (slotKind_id_lt s.kind)) ?_
  refine reads_bind_nil (reads_ofExcept (slotKind_fromId_ok.mpr rfl)) ?_
  refine reads_bind (reads_takeArray s.pubkey) ?_
  refine reads_bind (reads_takeArray s.salt) ?_
  refine reads_bind (reads_takeWord hcreated) ?_
  refine reads_bind (reads_takeBlob "wrapped_privkey" h.wrappedPrivkey) ?_
  refine reads_bind (reads_takeArray s.wrappedDek.ephemeralPub) ?_
  refine reads_bind (reads_takeBlob "wrapped_dek" h.wrappedDek) ?_
  refine reads_bind (reads_takeUtf8 "rp_id" h.rpId) ?_
  refine reads_bind (reads_takeBlob "credential_id" h.credentialId) ?_
  refine reads_bind (reads_takeUtf8 "label" h.label) ?_
  rw [hback]
  exact reads_of_pure_bind (f := fun key => { s with credentialPublicKey := key })
    (reads_takeBlob "credential_public_key" h.credentialPublicKey)

theorem canonical_slot : Canonical Slot.decode Slot.encode Slot.Fits := by
  intro cursor s rest h
  obtain ⟨id, _, hid, h⟩ := run_bind_ok.mp h
  obtain ⟨kindId, _, hkindId, h⟩ := run_bind_ok.mp h
  obtain ⟨kind, _, hkindRun, h⟩ := run_bind_ok.mp h
  obtain ⟨pubkey, _, hpubkey, h⟩ := run_bind_ok.mp h
  obtain ⟨salt, _, hsalt, h⟩ := run_bind_ok.mp h
  obtain ⟨created, _, hcreatedRun, h⟩ := run_bind_ok.mp h
  obtain ⟨privkey, _, hprivkeyRun, h⟩ := run_bind_ok.mp h
  obtain ⟨ephemeral, _, hephemeral, h⟩ := run_bind_ok.mp h
  obtain ⟨sealed, _, hsealedRun, h⟩ := run_bind_ok.mp h
  obtain ⟨rpId, _, hrpIdRun, h⟩ := run_bind_ok.mp h
  obtain ⟨credentialId, _, hcredentialIdRun, h⟩ := run_bind_ok.mp h
  obtain ⟨label, _, hlabelRun, h⟩ := run_bind_ok.mp h
  obtain ⟨publicKey, _, hpublicKeyRun, h⟩ := run_bind_ok.mp h
  obtain ⟨rfl, rfl⟩ := run_pure_ok.mp h
  obtain ⟨hkind, rfl⟩ := run_ofExcept_ok.mp hkindRun
  rw [slotKind_fromId_ok] at hkind
  subst hkind
  obtain ⟨hcreated, hlt⟩ := run_takeWord_ok hcreatedRun
  have hback : (UInt64.ofNat created).toNat = created := UInt64.toNat_ofNat_of_lt' hlt
  obtain ⟨hprivkey, hprivkeyLen⟩ := run_takeBlob_ok hprivkeyRun
  obtain ⟨hsealed, hsealedLen⟩ := run_takeBlob_ok hsealedRun
  obtain ⟨hrpId, hrpIdLen⟩ := run_takeUtf8_ok hrpIdRun
  obtain ⟨hcredentialId, hcredentialIdLen⟩ := run_takeBlob_ok hcredentialIdRun
  obtain ⟨hlabel, hlabelLen⟩ := run_takeUtf8_ok hlabelRun
  obtain ⟨hpublicKey, hpublicKeyLen⟩ := run_takeBlob_ok hpublicKeyRun
  refine ⟨?_, ⟨hprivkeyLen, hsealedLen, hrpIdLen, hcredentialIdLen, hlabelLen, hpublicKeyLen⟩⟩
  rw [run_takeArray_ok hid, (run_takeWord_ok hkindId).1, run_takeArray_ok hpubkey,
    run_takeArray_ok hsalt, hcreated, hprivkey, run_takeArray_ok hephemeral, hsealed, hrpId,
    hcredentialId, hlabel, hpublicKey]
  simp only [Slot.encode, hback, List.append_assoc]

end Slots

section Files

theorem reads_header {h : HeaderView} (hf : h.Fits) : Reads HeaderView.decode h.encode h := by
  have hversion : checkVersion h.formatVersion.toNat = .ok h.formatVersion :=
    checkVersion_ok.mpr ⟨rfl, hf.version⟩
  have hversionLt : h.formatVersion.toNat < 256 ^ 4 := h.formatVersion.toNat_lt
  have hgeneration : h.dekGeneration.toNat < 256 ^ 8 := Word64.toNat_lt _
  have hback : UInt64.ofNat h.dekGeneration.toNat = h.dekGeneration := UInt64.ofNat_toNat
  have hcount : checkSlotCount h.slots.length = .ok () :=
    checkSlotCount_ok.mpr ⟨by simp [hf.nonempty], hf.count⟩
  have hcountLt : h.slots.length < 256 ^ 4 := by
    have := hf.count
    unfold maxSlots at this
    omega
  have haead : h.aeadAlg.id < 256 ^ 2 := by
    cases h.aeadAlg
    decide
  have hkdf : h.kdfAlg.id < 256 ^ 2 := by
    cases h.kdfAlg
    decide
  unfold HeaderView.decode HeaderView.encode
  refine reads_bind (reads_bytes _ rfl) ?_
  refine reads_bind_nil (reads_ofExcept (checkMagic_ok.mpr rfl)) ?_
  refine reads_bind (reads_takeWord hversionLt) ?_
  refine reads_bind_nil (reads_ofExcept hversion) ?_
  refine reads_bind (reads_takeArray h.vaultId) ?_
  refine reads_bind (reads_takeWord hgeneration) ?_
  refine reads_bind (reads_takeWord haead) ?_
  refine reads_bind_nil (reads_ofExcept (aeadAlg_fromId_ok.mpr rfl)) ?_
  refine reads_bind (reads_takeWord hkdf) ?_
  refine reads_bind_nil (reads_ofExcept (kdfAlg_fromId_ok.mpr rfl)) ?_
  refine reads_bind (reads_takeWord hcountLt) ?_
  refine reads_bind_nil (reads_ofExcept hcount) ?_
  rw [hback, ← List.append_nil (h.slots.flatMap Slot.encode)]
  refine reads_bind (reads_replicate fun s hs => reads_slot (hf.slots s hs)) ?_
  exact reads_bind_nil (reads_ofExcept (checkSlotIds_ok.mpr hf.ids)) (reads_pure h)

theorem canonical_header : Canonical HeaderView.decode HeaderView.encode HeaderView.Fits := by
  intro cursor view rest h
  obtain ⟨found, _, hfound, h⟩ := run_bind_ok.mp h
  obtain ⟨⟨⟩, _, hmagicRun, h⟩ := run_bind_ok.mp h
  obtain ⟨version, _, hversion, h⟩ := run_bind_ok.mp h
  obtain ⟨formatVersion, _, hformatRun, h⟩ := run_bind_ok.mp h
  obtain ⟨vaultId, _, hvaultId, h⟩ := run_bind_ok.mp h
  obtain ⟨generation, _, hgenerationRun, h⟩ := run_bind_ok.mp h
  obtain ⟨aeadId, _, haeadId, h⟩ := run_bind_ok.mp h
  obtain ⟨aead, _, haeadRun, h⟩ := run_bind_ok.mp h
  obtain ⟨kdfId, _, hkdfId, h⟩ := run_bind_ok.mp h
  obtain ⟨kdf, _, hkdfRun, h⟩ := run_bind_ok.mp h
  obtain ⟨count, _, hcount, h⟩ := run_bind_ok.mp h
  obtain ⟨⟨⟩, _, hcountOkRun, h⟩ := run_bind_ok.mp h
  obtain ⟨slots, _, hslotsRun, h⟩ := run_bind_ok.mp h
  obtain ⟨⟨⟩, _, hidsRun, h⟩ := run_bind_ok.mp h
  obtain ⟨rfl, rfl⟩ := run_pure_ok.mp h
  obtain ⟨hmagic, rfl⟩ := run_ofExcept_ok.mp hmagicRun
  obtain ⟨hformat, rfl⟩ := run_ofExcept_ok.mp hformatRun
  obtain ⟨haead, rfl⟩ := run_ofExcept_ok.mp haeadRun
  obtain ⟨hkdf, rfl⟩ := run_ofExcept_ok.mp hkdfRun
  obtain ⟨hcountOk, rfl⟩ := run_ofExcept_ok.mp hcountOkRun
  obtain ⟨hids, rfl⟩ := run_ofExcept_ok.mp hidsRun
  rw [checkMagic_ok] at hmagic
  obtain ⟨rfl, hcurrent⟩ := checkVersion_ok.mp hformat
  rw [aeadAlg_fromId_ok] at haead
  rw [kdfAlg_fromId_ok] at hkdf
  rw [checkSlotCount_ok] at hcountOk
  rw [checkSlotIds_ok] at hids
  obtain ⟨hgeneration, hlt⟩ := run_takeWord_ok hgenerationRun
  have hback : (UInt64.ofNat generation).toNat = generation := UInt64.toNat_ofNat_of_lt' hlt
  obtain ⟨hslots, hlength, hfits⟩ := canonical_replicate canonical_slot _ _ _ _ hslotsRun
  subst hmagic haead hkdf hlength
  constructor
  · rw [(run_bytes_ok.mp hfound).1, (run_takeWord_ok hversion).1, run_takeArray_ok hvaultId,
      hgeneration, (run_takeWord_ok haeadId).1, (run_takeWord_ok hkdfId).1,
      (run_takeWord_ok hcount).1, hslots]
    simp only [HeaderView.encode, hback, List.append_assoc]
  · exact ⟨hcurrent, by simpa using hcountOk.1, hcountOk.2, hfits, hids⟩

theorem reads_body {sealedBody : Bytes} (h : BodyFits sealedBody) :
    Reads takeBody (beBytes 8 sealedBody.length ++ sealedBody) sealedBody := by
  have hlt : sealedBody.length < 256 ^ 8 := by
    have := h.upper
    unfold maxBodyLen at this
    omega
  exact reads_bind (reads_takeWord hlt)
    (reads_bind_nil (reads_ofExcept (checkBodyLen_ok.mpr ⟨h.lower, h.upper⟩)) (reads_bytes _ rfl))

theorem canonical_body :
    Canonical takeBody (fun body => beBytes 8 body.length ++ body) BodyFits := by
  intro cursor body rest h
  obtain ⟨len, _, hlen, h⟩ := run_bind_ok.mp h
  obtain ⟨⟨⟩, _, hcheckRun, h⟩ := run_bind_ok.mp h
  obtain ⟨hcheck, rfl⟩ := run_ofExcept_ok.mp hcheckRun
  obtain ⟨rfl, rfl⟩ := run_bytes_ok.mp h
  rw [checkBodyLen_ok] at hcheck
  exact ⟨by rw [(run_takeWord_ok hlen).1, List.append_assoc], hcheck.1, hcheck.2⟩

/-- A file is accepted exactly when it is the encoding of a header and a body
within the limits; what comes back is that header, that body and the header's
bytes. -/
theorem decode_ok_iff {bytes aad : Bytes} {file : VaultFile} :
    VaultFile.decode bytes = .ok (file, aad) ↔
      file.header.Fits ∧ BodyFits file.sealedBody ∧ aad = file.header.encode ∧
        bytes = encodeFile aad file.sealedBody := by
  unfold VaultFile.decode encodeFile
  constructor
  · intro h
    split at h
    · cases h
    rename_i header cursor hheader
    split at h
    · cases h
    rename_i body rest hbody
    split at h
    · cases h
    rename_i hrest
    simp only [ne_eq, Decidable.not_not] at hrest
    subst hrest
    obtain ⟨rfl, hfits⟩ := canonical_header _ _ _ hheader
    obtain ⟨rfl, hbodyFits⟩ := canonical_body _ _ _ hbody
    cases h
    refine ⟨hfits, hbodyFits, ?_, ?_⟩
    · simp [VaultFile.header]
    · simp
  · rintro ⟨hfits, hbodyFits, rfl, rfl⟩
    rw [List.append_assoc, reads_header hfits]
    have hbody := reads_body hbodyFits []
    rw [List.append_nil] at hbody
    simp only [hbody]
    simp [VaultFile.header]

/-- What the reader takes is exactly what the writer writes of the files within
its limits, and it gives back the file and its header's bytes. -/
theorem format_canonical :
    (∀ bytes file aad, VaultFile.decode bytes = .ok (file, aad) →
      encodeFile file.header.encode file.sealedBody = bytes ∧ aad = file.header.encode) ∧
    (∀ file : VaultFile, file.formatVersion = Vault.formatVersion →
      1 ≤ file.slots.length → file.slots.length ≤ maxSlots → (file.slots.map Slot.id).Nodup →
      (∀ s ∈ file.slots, s.Fits) → nonceLen + tagLen ≤ file.sealedBody.length →
      file.sealedBody.length ≤ maxBodyLen →
      VaultFile.decode (encodeFile file.header.encode file.sealedBody) =
        .ok (file, file.header.encode)) ∧
    ∀ bytes, (∀ file : VaultFile, file.header.Fits → BodyFits file.sealedBody →
      bytes ≠ encodeFile file.header.encode file.sealedBody) →
      ∃ e, VaultFile.decode bytes = .error e := by
  refine ⟨?_, ?_, ?_⟩
  · intro bytes file aad h
    obtain ⟨-, -, rfl, rfl⟩ := decode_ok_iff.mp h
    exact ⟨rfl, rfl⟩
  · intro file hversion hone hcount hids hslots hlower hupper
    have hne : file.slots ≠ [] := by
      intro hnil
      rw [hnil] at hone
      exact absurd hone (by decide)
    exact decode_ok_iff.mpr ⟨⟨hversion, hne, hcount, hslots, hids⟩, ⟨hlower, hupper⟩, rfl, rfl⟩
  · intro bytes hno
    cases hdecode : VaultFile.decode bytes with
    | error e => exact ⟨e, rfl⟩
    | ok r =>
      obtain ⟨file, aad⟩ := r
      obtain ⟨hheader, hbody, rfl, hbytes⟩ := decode_ok_iff.mp hdecode
      exact absurd hbytes (hno file hheader hbody)

def plainSlot : Slot where
  id := ⟨List.replicate 16 0, rfl⟩
  kind := .recovery
  pubkey := ⟨List.replicate 32 0, rfl⟩
  salt := ⟨List.replicate 32 0, rfl⟩
  createdAtEpochMs := 0
  wrappedPrivkey := []
  wrappedDek := ⟨⟨List.replicate 32 0, rfl⟩, []⟩
  rpId := ""
  credentialId := []
  label := ""
  credentialPublicKey := []

/-- A file of the next version of the format. -/
def nextVersionFile : VaultFile where
  formatVersion := Vault.formatVersion + 1
  vaultId := ⟨List.replicate 16 0, rfl⟩
  dekGeneration := 1
  aeadAlg := .xChaCha20Poly1305
  kdfAlg := .hkdfSha256
  slots := [plainSlot]
  sealedBody := List.replicate 40 0

theorem nextVersionFile_refused :
    (1 ≤ nextVersionFile.slots.length ∧ nextVersionFile.slots.length ≤ maxSlots ∧
      (nextVersionFile.slots.map Slot.id).Nodup ∧ (∀ s ∈ nextVersionFile.slots, s.Fits) ∧
      BodyFits nextVersionFile.sealedBody) ∧
    VaultFile.decode (encodeFile nextVersionFile.header.encode nextVersionFile.sealedBody) =
      .error (.unsupportedVersion 3) := by
  refine ⟨⟨by decide, by decide, by decide, ?_, by decide, by decide⟩, by decide +kernel⟩
  intro s hs
  rw [List.mem_singleton.mp hs]
  exact ⟨by decide, by decide, by decide, by decide, by decide, by decide⟩

end Files

section Injectivity

theorem utf8_inj {s t : String} (h : utf8 s = utf8 t) : s = t := by
  have hs := fromUtf8_utf8 s
  rw [h, fromUtf8_utf8] at hs
  exact (Option.some.inj hs).symm

theorem slotKind_id_inj {kind kind' : SlotKind} (h : kind.id = kind'.id) : kind = kind' := by
  cases kind <;> cases kind' <;> simp_all [SlotKind.id]

theorem block_append_inj {n : ℕ} {block block' : Block n} {rest rest' : Bytes}
    (h : block.1 ++ rest = block'.1 ++ rest') : block = block' ∧ rest = rest' := by
  obtain ⟨hblock, hrest⟩ := List.append_inj h (by rw [block.2, block'.2])
  exact ⟨Subtype.ext hblock, hrest⟩

/-- A field whose length the 32-bit word holds can be read off. -/
theorem putBlob_append_inj {bytes bytes' rest rest' : Bytes} (h : bytes.length < 256 ^ 4)
    (h' : bytes'.length < 256 ^ 4) (heq : putBlob bytes ++ rest = putBlob bytes' ++ rest') :
    bytes = bytes' ∧ rest = rest' := by
  unfold putBlob at heq
  rw [List.append_assoc, List.append_assoc] at heq
  obtain ⟨hlen, htail⟩ := beBytes_append_inj h h' heq
  exact List.append_inj htail hlen

/-- No field of a slot is longer than the slot. -/
structure Slot.Short (s : Slot) (bound : ℕ) : Prop where
  wrappedPrivkey : s.wrappedPrivkey.length < bound
  wrappedDek : s.wrappedDek.sealed.length < bound
  rpId : (utf8 s.rpId).length < bound
  credentialId : s.credentialId.length < bound
  label : (utf8 s.label).length < bound
  credentialPublicKey : s.credentialPublicKey.length < bound

theorem Slot.short_of_encode {s : Slot} {bound : ℕ} (h : s.encode.length < bound) :
    s.Short bound := by
  simp only [Slot.encode, putBlob, List.length_append, length_beBytes] at h
  constructor <;> omega

theorem slot_append_inj {s s' : Slot} {rest rest' : Bytes} (h : s.encode.length < 256 ^ 4)
    (h' : s'.encode.length < 256 ^ 4) (heq : s.encode ++ rest = s'.encode ++ rest') :
    s = s' ∧ rest = rest' := by
  have hs := Slot.short_of_encode h
  have hs' := Slot.short_of_encode h'
  have hcreated : s.createdAtEpochMs.toNat < 256 ^ 8 := Word64.toNat_lt _
  have hcreated' : s'.createdAtEpochMs.toNat < 256 ^ 8 := Word64.toNat_lt _
  simp only [Slot.encode, List.append_assoc] at heq
  obtain ⟨hid, heq⟩ := block_append_inj heq
  obtain ⟨hkind, heq⟩ := beBytes_append_inj (slotKind_id_lt _) (slotKind_id_lt _) heq
  obtain ⟨hpubkey, heq⟩ := block_append_inj heq
  obtain ⟨hsalt, heq⟩ := block_append_inj heq
  obtain ⟨hcreatedAt, heq⟩ := beBytes_append_inj hcreated hcreated' heq
  obtain ⟨hprivkey, heq⟩ := putBlob_append_inj hs.wrappedPrivkey hs'.wrappedPrivkey heq
  obtain ⟨hephemeral, heq⟩ := block_append_inj heq
  obtain ⟨hsealed, heq⟩ := putBlob_append_inj hs.wrappedDek hs'.wrappedDek heq
  obtain ⟨hrpId, heq⟩ := putBlob_append_inj hs.rpId hs'.rpId heq
  obtain ⟨hcredentialId, heq⟩ := putBlob_append_inj hs.credentialId hs'.credentialId heq
  obtain ⟨hlabel, heq⟩ := putBlob_append_inj hs.label hs'.label heq
  obtain ⟨hpublicKey, hrest⟩ :=
    putBlob_append_inj hs.credentialPublicKey hs'.credentialPublicKey heq
  refine ⟨?_, hrest⟩
  have hwrapped : s.wrappedDek = s'.wrappedDek := by
    cases hw : s.wrappedDek
    cases hw' : s'.wrappedDek
    simp_all
  cases s
  cases s'
  simp only [Slot.mk.injEq]
  exact ⟨hid, slotKind_id_inj hkind, hpubkey, hsalt, UInt64.toNat_inj.mp hcreatedAt, hprivkey,
    hwrapped, utf8_inj hrpId, hcredentialId, utf8_inj hlabel, hpublicKey⟩

theorem slots_append_inj {slots slots' : List Slot} {rest rest' : Bytes}
    (hcount : slots.length = slots'.length) (h : (slots.flatMap Slot.encode).length < 256 ^ 4)
    (h' : (slots'.flatMap Slot.encode).length < 256 ^ 4)
    (heq : slots.flatMap Slot.encode ++ rest = slots'.flatMap Slot.encode ++ rest') :
    slots = slots' ∧ rest = rest' := by
  induction slots generalizing slots' with
  | nil =>
    rw [List.eq_nil_of_length_eq_zero hcount.symm] at heq ⊢
    exact ⟨rfl, heq⟩
  | cons s slots ih =>
    cases slots' with
    | nil => simp at hcount
    | cons s' slots' =>
      simp only [List.flatMap_cons, List.append_assoc, List.length_append] at heq h h'
      obtain ⟨rfl, htail⟩ := slot_append_inj (by omega) (by omega) heq
      obtain ⟨rfl, hrest⟩ := ih (by simpa using hcount) (by omega) (by omega) htail
      exact ⟨rfl, hrest⟩

theorem length_le_flatMap_encode (slots : List Slot) :
    slots.length ≤ (slots.flatMap Slot.encode).length := by
  induction slots with
  | nil => simp
  | cons s slots ih =>
    have hid : 16 ≤ s.encode.length := by
      simp only [Slot.encode, List.length_append, s.id.2]
      omega
    simp only [List.flatMap_cons, List.length_append, List.length_cons]
    omega

/-- A header of less than four gigabytes in front of other bytes can be read
off, whatever it lists. -/
theorem header_append_inj {h h' : HeaderView} {rest rest' : Bytes}
    (hlen : h.encode.length < 256 ^ 4) (hlen' : h'.encode.length < 256 ^ 4)
    (heq : h.encode ++ rest = h'.encode ++ rest') : h = h' ∧ rest = rest' := by
  have hcount := length_le_flatMap_encode h.slots
  have hcount' := length_le_flatMap_encode h'.slots
  simp only [HeaderView.encode, List.append_assoc, List.length_append, length_beBytes]
    at hlen hlen' heq
  obtain ⟨-, heq⟩ := List.append_inj heq rfl
  obtain ⟨hversion, heq⟩ := beBytes_append_inj h.formatVersion.toNat_lt h'.formatVersion.toNat_lt heq
  obtain ⟨hvaultId, heq⟩ := block_append_inj heq
  obtain ⟨hgeneration, heq⟩ :=
    beBytes_append_inj (Word64.toNat_lt h.dekGeneration) (Word64.toNat_lt h'.dekGeneration) heq
  obtain ⟨-, heq⟩ := List.append_inj heq (by simp)
  obtain ⟨-, heq⟩ := List.append_inj heq (by simp)
  obtain ⟨hslotCount, heq⟩ := beBytes_append_inj (by omega) (by omega) heq
  obtain ⟨hslots, hrest⟩ := slots_append_inj hslotCount (by omega) (by omega) heq
  refine ⟨?_, hrest⟩
  cases h with
  | mk version vaultId generation aead kdf slots =>
  cases h' with
  | mk version' vaultId' generation' aead' kdf' slots' =>
  cases aead
  cases aead'
  cases kdf
  cases kdf'
  simp only [HeaderView.mk.injEq, true_and]
  exact ⟨UInt32.toNat_inj.mp hversion, hvaultId, UInt64.toNat_inj.mp hgeneration, hslots⟩

/-- What the reader makes of a file that was written is what was written. -/
theorem decode_encodeFile {h : HeaderView} {sealedBody aad : Bytes} {file : VaultFile}
    (hlen : (encodeFile h.encode sealedBody).length ≤ maxFileLen)
    (hdecode : VaultFile.decode (encodeFile h.encode sealedBody) = .ok (file, aad)) :
    file.header = h ∧ file.sealedBody = sealedBody ∧ aad = h.encode := by
  obtain ⟨-, -, haad, hbytes⟩ := decode_ok_iff.mp hdecode
  have hmax : maxFileLen < 256 ^ 4 := by decide
  have hlen' := hlen
  rw [hbytes, haad] at hlen'
  rw [haad] at hbytes
  simp only [encodeFile, List.append_assoc, List.length_append, length_beBytes]
    at hlen hlen' hbytes
  obtain ⟨hheader, hbody⟩ := header_append_inj (by omega) (by omega) hbytes
  obtain ⟨-, hbody⟩ := beBytes_append_inj (by omega) (by omega) hbody
  exact ⟨hheader.symm, hbody.symm, by rw [haad, hheader]⟩

end Injectivity

end Vault

end CacheWarden
