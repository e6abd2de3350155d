import CacheWarden.Vault.Durability

/-!
# Reading back what a mutation left

The writer does not look at the limits the reader enforces. A file left by
successful mutations is accepted, and opens with every credential to exactly the
vault in memory, if and only if its slots and its entries are within those
limits.
-/

set_option autoImplicit false

namespace CacheWarden

namespace Vault

/-- The bytes of one slot in the header, its keys and wraps having fixed size. -/
def SlotShape.encodedLen (s : SlotShape) : ℕ :=
  290 + (utf8 s.rpId).length + s.credentialId.length + (utf8 s.label).length +
    s.credentialPublicKey.length

/-- What the reader accepts of slots and of a body of this many bytes. -/
structure Limits (shapes : List SlotShape) (plaintextLen : ℕ) : Prop where
  count : shapes.length ≤ maxSlots
  ids : (shapes.map SlotShape.id).Nodup
  rpId : ∀ s ∈ shapes, (utf8 s.rpId).length ≤ maxSlotFieldLen
  credentialId : ∀ s ∈ shapes, s.credentialId.length ≤ maxSlotFieldLen
  label : ∀ s ∈ shapes, (utf8 s.label).length ≤ maxSlotFieldLen
  credentialPublicKey : ∀ s ∈ shapes, s.credentialPublicKey.length ≤ maxSlotFieldLen
  body : plaintextLen + 40 ≤ maxBodyLen
  file : 44 + (shapes.map SlotShape.encodedLen).sum + 8 + (plaintextLen + 40) ≤ maxFileLen

section Collecting

theorem collectEntries_ok {es : List VaultEntry} {m : KeyMap VaultEntry}
    (hm : ∀ (k : String) e, m[k]? = some e → e.key = k) (hnodup : (es.map VaultEntry.key).Nodup)
    (hnew : ∀ e ∈ es, m[e.key]? = none) :
    ∃ r, collectEntries es m hm = .ok r ∧
      ∀ (k : String) e, r.1[k]? = some e ↔ (e ∈ es ∧ e.key = k) ∨ m[k]? = some e := by
  induction es generalizing m with
  | nil => exact ⟨⟨m, hm⟩, rfl, by simp⟩
  | cons e es ih =>
    rw [List.map_cons, List.nodup_cons] at hnodup
    have hfresh := hnew e (by simp)
    unfold collectEntries
    rw [if_neg (by simp [hfresh])]
    have hnew' : ∀ a ∈ es, (m.insert e.key e)[a.key]? = none := by
      intro a ha
      have hne : e.key ≠ a.key := by
        intro heq
        exact hnodup.1 (heq ▸ List.mem_map_of_mem ha)
      rw [KeyMap.get_insert_of_ne _ _ hne]
      exact hnew a (by simp [ha])
    obtain ⟨r, hr, hlookup⟩ := ih _ hnodup.2 hnew'
    refine ⟨r, hr, ?_⟩
    intro k a
    rw [hlookup, KeyMap.get_insert]
    constructor
    · rintro (⟨ha, hk⟩ | h)
      · exact Or.inl ⟨List.mem_cons_of_mem _ ha, hk⟩
      · split at h
        · rename_i heq
          cases h
          exact Or.inl ⟨List.mem_cons_self, heq⟩
        · exact Or.inr h
    · rintro (⟨ha, hk⟩ | h)
      · rcases List.mem_cons.mp ha with rfl | ha
        · right
          rw [if_pos hk]
        · exact Or.inl ⟨ha, hk⟩
      · right
        rw [if_neg]
        · exact h
        · intro heq
          rw [← heq, hfresh] at h
          cases h

/-- The entries of a vault, listed and collected again. -/
theorem collectEntries_values (v : UnlockedVault) (h : ∀ (k : String) e,
    (∅ : KeyMap VaultEntry)[k]? = some e → e.key = k) :
    collectEntries (KeyMap.values v.entries) ∅ h = .ok ⟨v.entries, v.keyed⟩ := by
  obtain ⟨r, hr, hlookup⟩ := collectEntries_ok h (KeyMap.nodup_map_values v.keyed) (by simp)
  rw [hr]
  have hentries : r.1 = v.entries := by
    apply KeyMap.ext_get
    intro k
    apply Option.ext
    intro e
    rw [hlookup, KeyMap.mem_values]
    constructor
    · rintro (⟨⟨k', hk'⟩, hkey⟩ | h)
      · rw [v.keyed k' e hk'] at hkey
        rw [← hkey]
        exact hk'
      · simp at h
    · intro hk
      exact Or.inl ⟨⟨k, hk⟩, v.keyed k e hk⟩
  congr 1
  exact Subtype.ext hentries

end Collecting

section Opening

variable {c : Crypto} {serde : BodySerde}

/-- The file as it is when it holds the encoding of `v`. -/
def lockedOf (c : Crypto) (serde : BodySerde) (nonce : Nonce) (v : UnlockedVault) : LockedVault where
  file :=
    { formatVersion := v.formatVersion, vaultId := v.vaultId, dekGeneration := v.dekGeneration
      aeadAlg := v.aeadAlg, kdfAlg := v.kdfAlg, slots := v.slots
      sealedBody := v.sealedBody c serde nonce }
  headerAad := v.header.encode

variable (nonce : Nonce) (hc : c.Ideal) {v : UnlockedVault}

include hc

theorem unlockSlot_of_holds (hserde : serde.Lossless v.body) {slot : Slot} {recipientSecret : Key}
    (hpub : slot.pubkey = c.publicKey recipientSecret)
    (hwrap : ∃ ephemeralSecret n, c.wrapDek ephemeralSecret n v.dek slot.pubkey v.vaultId slot.id
      (slot.ownBindingAad v.vaultId v.formatVersion) = .ok slot.wrappedDek) :
    (lockedOf c serde nonce v).unlockSlot c serde slot recipientSecret.1 = .ok v := by
  obtain ⟨ephemeralSecret, n, hwrap⟩ := hwrap
  rw [hpub] at hwrap
  have hunwrap := unwrapDek_wrapDek hc hwrap
  have hopen := open_seal hc v.dek nonce v.header.encode (v.plaintext serde) "contents"
  have hparse : LockedVault.parseEntries serde (v.plaintext serde) = .ok ⟨v.entries, v.keyed⟩ := by
    have hbody : serde.fromPlaintext (v.plaintext serde) = .ok v.body := hserde
    unfold LockedVault.parseEntries
    rw [hbody]
    exact collectEntries_values v _
  have hkey : blockOf 32 recipientSecret.1 = some recipientSecret := by
    simp [blockOf, recipientSecret.2]
  have hdek : blockOf 32 v.dek.1 = some v.dek := by simp [blockOf, v.dek.2]
  simp only [LockedVault.unlockSlot, lockedOf, hkey, hunwrap, hdek, UnlockedVault.sealedBody, hopen,
    hparse]

/-- With every slot wrapped, any credential opens the file to the vault. -/
theorem trySlots_of_holds (hserde : serde.Lossless v.body) {slots : List Slot}
    {credentials : List Bytes}
    (h : List.Forall₂ (Slot.Holds c v.vaultId v.formatVersion v.dek) slots credentials) :
    List.Forall₂ (fun slot secret =>
        (lockedOf c serde nonce v).trySlots c serde secret slot.kind slots = .ok v)
      slots credentials := by
  have hstep : ∀ (slot : Slot) (secret' secret : Bytes) (kind : SlotKind) (rest : List Slot),
      slot.Holds c v.vaultId v.formatVersion v.dek secret' →
      (lockedOf c serde nonce v).trySlots c serde secret kind rest = .ok v →
      (lockedOf c serde nonce v).trySlots c serde secret kind (slot :: rest) = .ok v := by
    rintro slot secret' secret kind rest ⟨recipientSecret, hpub, ⟨n, hpriv⟩, hwrap⟩ hrest
    unfold LockedVault.trySlots
    split
    · exact hrest
    split
    · exact hrest
    · rename_i privkey hprivkey
      rw [hpriv] at hprivkey
      rw [open_seal_sound hc hprivkey]
      exact unlockSlot_of_holds nonce hc hserde hpub hwrap
  induction h with
  | nil => exact .nil
  | @cons slot secret slots credentials hslot hrest ih =>
    refine .cons ?_ ?_
    · obtain ⟨recipientSecret, hpub, ⟨n, hpriv⟩, hwrap⟩ := hslot
      have hopen := open_seal hc
        (c.deriveKek secret slot.salt v.vaultId v.formatVersion slot.id) n
        (slot.ownBindingAad v.vaultId v.formatVersion) recipientSecret.1 "slot private key"
      rw [← hpriv] at hopen
      unfold LockedVault.trySlots
      rw [if_neg (by simp)]
      simp only [lockedOf, hopen]
      exact unlockSlot_of_holds nonce hc hserde hpub hwrap
    · exact ih.imp fun slot' secret' hopen => hstep slot secret secret' slot'.kind slots hslot hopen

/-- No credential opens the file to anything else. -/
theorem trySlots_sound (hserde : serde.Lossless v.body) {slots : List Slot}
    {credentials : List Bytes}
    (h : List.Forall₂ (Slot.Holds c v.vaultId v.formatVersion v.dek) slots credentials)
    {secret : Bytes} {kind : SlotKind} {v' : UnlockedVault}
    (hopen : (lockedOf c serde nonce v).trySlots c serde secret kind slots = .ok v') :
    v' = v := by
  induction h with
  | nil => cases hopen
  | cons hslot _ ih =>
    obtain ⟨recipientSecret, hpub, ⟨n, hpriv⟩, hwrap⟩ := hslot
    unfold LockedVault.trySlots at hopen
    split at hopen
    · exact ih hopen
    split at hopen
    · exact ih hopen
    · rename_i privkey hprivkey
      rw [hpriv] at hprivkey
      rw [open_seal_sound hc hprivkey, unlockSlot_of_holds nonce hc hserde hpub hwrap] at hopen
      cases hopen
      rfl

/-- The wraps of a slot have fixed size. -/
theorem length_wraps {vaultId : VaultId} {formatVersion : UInt32} {dek : Key} {slot : Slot}
    {secret : Bytes} (h : slot.Holds c vaultId formatVersion dek secret) :
    slot.wrappedPrivkey.length = 72 ∧ slot.wrappedDek.sealed.length = 72 := by
  obtain ⟨recipientSecret, hpub, ⟨n, hpriv⟩, ephemeralSecret, n', hwrap⟩ := h
  constructor
  · rw [hpriv, length_seal hc, recipientSecret.2]
  · rw [hpub, wrapDek_ok hc] at hwrap
    rw [← Except.ok.inj hwrap]
    simp only [length_seal hc, dek.2]

theorem length_slot_encode {vaultId : VaultId} {formatVersion : UInt32} {dek : Key} {slot : Slot}
    {secret : Bytes} (h : slot.Holds c vaultId formatVersion dek secret) :
    slot.encode.length = slot.shape.encodedLen := by
  obtain ⟨hpriv, hdek⟩ := length_wraps hc h
  simp only [Slot.encode, putBlob, List.length_append, Wire.length_beBytes, slot.id.2,
    slot.pubkey.2, slot.salt.2, slot.wrappedDek.ephemeralPub.2, hpriv, hdek, SlotShape.encodedLen,
    Slot.shape]
  omega

theorem length_header {credentials : List Bytes} (h : v.Wrapped c credentials) :
    v.header.encode.length = 44 + ((v.slots.map Slot.shape).map SlotShape.encodedLen).sum := by
  have hslots : ∀ {slots : List Slot} {credentials : List Bytes},
      List.Forall₂ (Slot.Holds c v.vaultId v.formatVersion v.dek) slots credentials →
      (slots.flatMap Slot.encode).length =
        ((slots.map Slot.shape).map SlotShape.encodedLen).sum := by
    intro slots credentials h
    induction h with
    | nil => rfl
    | cons hslot _ ih =>
      rw [List.flatMap_cons, List.length_append, ih, length_slot_encode hc hslot, List.map_cons,
        List.map_cons, List.sum_cons]
  simp only [HeaderView.encode, UnlockedVault.header, List.length_append, Wire.length_beBytes,
    v.vaultId.2, hslots h]
  have hmagic : magic.length = 8 := rfl
  omega

/-- The header and the body a vault is written with are within the reader's
limits exactly when its slots and its entries are. -/
theorem fits_iff_limits {credentials : List Bytes} (h : v.Wrapped c credentials)
    (hversion : v.formatVersion = formatVersion) (hne : v.slots ≠ []) :
    (v.header.Fits ∧ BodyFits (v.sealedBody c serde nonce) ∧
        (v.encodeWithDek c serde nonce).length ≤ maxFileLen) ↔
      Limits (v.slots.map Slot.shape) (v.plaintext serde).length := by
  have hbody : (v.sealedBody c serde nonce).length = (v.plaintext serde).length + 40 :=
    length_seal hc _ _ _ _
  have hfile : (v.encodeWithDek c serde nonce).length =
      44 + ((v.slots.map Slot.shape).map SlotShape.encodedLen).sum + 8 +
        ((v.plaintext serde).length + 40) := by
    simp only [UnlockedVault.encodeWithDek, encodeFile, List.length_append, Wire.length_beBytes,
      length_header hc h, hbody]
  have hids : (v.slots.map Slot.shape).map SlotShape.id = v.slots.map Slot.id := by
    rw [List.map_map]
    rfl
  rw [hfile]
  constructor
  · rintro ⟨hheader, hbodyFits, hlen⟩
    have hcount : v.slots.length ≤ maxSlots := hheader.count
    refine ⟨by simpa using hcount, by rw [hids]; exact hheader.ids, ?_, ?_, ?_, ?_, ?_, hlen⟩
    · intro s hs
      obtain ⟨slot, hslot, rfl⟩ := List.mem_map.mp hs
      exact (hheader.slots slot hslot).rpId
    · intro s hs
      obtain ⟨slot, hslot, rfl⟩ := List.mem_map.mp hs
      exact (hheader.slots slot hslot).credentialId
    · intro s hs
      obtain ⟨slot, hslot, rfl⟩ := List.mem_map.mp hs
      exact (hheader.slots slot hslot).label
    · intro s hs
      obtain ⟨slot, hslot, rfl⟩ := List.mem_map.mp hs
      exact (hheader.slots slot hslot).credentialPublicKey
    · rw [← hbody]
      exact hbodyFits.upper
  · intro hlimits
    have hcount : v.slots.length ≤ maxSlots := by simpa using hlimits.count
    have hdistinct : (v.slots.map Slot.id).Nodup := by
      rw [← hids]
      exact hlimits.ids
    refine ⟨⟨hversion, hne, hcount, ?_, hdistinct⟩, ⟨?_, ?_⟩, hlimits.file⟩
    · intro slot hslot
      have hmem : slot.shape ∈ v.slots.map Slot.shape := List.mem_map_of_mem hslot
      obtain ⟨secret, hholds⟩ := Bench.holds_of_mem h hslot
      obtain ⟨hpriv, hdek⟩ := length_wraps hc hholds
      have hfixed : (72 : ℕ) ≤ maxSlotFieldLen := by decide
      exact ⟨by rw [hpriv]; exact hfixed, by rw [hdek]; exact hfixed, hlimits.rpId _ hmem,
        hlimits.credentialId _ hmem, hlimits.label _ hmem, hlimits.credentialPublicKey _ hmem⟩
    · rw [hbody]
      unfold nonceLen tagLen
      omega
    · rw [hbody]
      exact hlimits.body

omit hc in
/-- Whatever the reader makes of the file of a vault is that vault's header and
sealed body; it takes the file exactly when they are within its limits. -/
theorem open_written {locked : LockedVault} :
    LockedVault.open (some (v.encodeWithDek c serde nonce)) = .ok locked ↔
      locked = lockedOf c serde nonce v ∧ v.header.Fits ∧ BodyFits (v.sealedBody c serde nonce) ∧
        (v.encodeWithDek c serde nonce).length ≤ maxFileLen := by
  unfold LockedVault.open
  simp only
  constructor
  · intro h
    split at h
    · cases h
    rename_i hlen
    have hle : (v.encodeWithDek c serde nonce).length ≤ maxFileLen := Nat.not_lt.mp hlen
    split at h
    · cases h
    rename_i file aad hdecode
    cases h
    obtain ⟨hheader, hbody, haad⟩ := decode_encodeFile hle hdecode
    obtain ⟨hfits, hbodyFits, -, -⟩ := decode_ok_iff.mp hdecode
    rw [hheader] at hfits
    rw [hbody] at hbodyFits
    refine ⟨?_, hfits, hbodyFits, hle⟩
    cases file
    simp only [VaultFile.header, UnlockedVault.header, HeaderView.mk.injEq] at hheader
    simp_all [lockedOf]
  · rintro ⟨rfl, hheader, hbody, hlen⟩
    have hdecode : VaultFile.decode (v.encodeWithDek c serde nonce) =
        .ok ((lockedOf c serde nonce v).file, v.header.encode) :=
      decode_ok_iff.mpr ⟨hheader, hbody, rfl, rfl⟩
    rw [if_neg (Nat.not_lt.mpr hlen), hdecode]
    rfl

end Opening

namespace Bench

/-- The file is accepted, and the credential of every slot opens it to exactly
the vault in memory. -/
def Readable (c : Crypto) (serde : BodySerde) (b : Bench) : Prop :=
  ∃ locked, LockedVault.open b.trail.disk.file = .ok locked ∧
    List.Forall₂ (fun slot secret =>
      locked.unlockWithSecret c serde secret slot.kind = .ok b.vault) b.vault.slots b.credentials

/-- A bench on which nothing failed: the file is the vault in memory. -/
structure Intact (c : Crypto) (serde : BodySerde) (b : Bench) : Prop where
  wrapped : b.vault.Wrapped c b.credentials
  version : b.vault.formatVersion = formatVersion
  nonempty : b.vault.slots ≠ []
  file : FileAmong c serde [b.vault] b.trail.disk

variable {c : Crypto} {serde : BodySerde}

theorem readable_iff_limits (hc : c.Ideal) {b : Bench} (h : Intact c serde b)
    (hserde : serde.Lossless b.vault.body) :
    Readable c serde b ↔
      Limits (b.vault.slots.map Slot.shape) (b.vault.plaintext serde).length := by
  obtain ⟨v, hv, nonce, hfile⟩ := h.file
  rw [List.mem_singleton] at hv
  subst hv
  rw [← fits_iff_limits nonce hc h.wrapped h.version h.nonempty]
  unfold Readable
  rw [hfile]
  constructor
  · rintro ⟨locked, hopen, -⟩
    exact ((open_written nonce).mp hopen).2
  · intro hfits
    exact ⟨_, (open_written nonce).mpr ⟨rfl, hfits⟩, trySlots_of_holds nonce hc hserde h.wrapped⟩

/-- The attempt reports success. -/
def succeeds (c : Crypto) (serde : BodySerde) (b : Bench) (a : Attempt) : Prop :=
  (b.attempt c serde a).1 = .ok ()

/-- The slots and the entries the attempt is about are within the limits. -/
def WithinLimits (serde : BodySerde) (b : Bench) (a : Attempt) : Prop :=
  Limits (a.mutation.shapesAfter b.vault)
    (serde.toPlaintext (VaultBody.new
      (KeyMap.values (a.mutation.entriesAfter a.writeMs a.checkMs b.vault)))).length

theorem concluded_intact {b : Bench} (h : Intact c serde b) (a : Attempt)
    {r : Except VaultError Unit × UnlockedVault × Trail}
    (hr : Attempted (fileCommit c serde a.bodyNonce a.faults)
      (Intended c a.mutation a.checkMs a.writeMs b.vault b.credentials) b.vault
      { b.trail with moments := [] } r) (hok : r.1 = .ok ()) :
    Intact c serde (b.concluded a r) ∧
      r.2.1.slots.map Slot.shape = a.mutation.shapesAfter b.vault ∧
      r.2.1.entries = a.mutation.entriesAfter a.writeMs a.checkMs b.vault := by
  cases hr with
  | refused e => cases hok
  | settled x hself =>
    exact ⟨⟨hself.wrapped, h.version, h.nonempty, h.file⟩, hself.shapes, hself.entries⟩
  | landed x next hnext hcommit =>
    have hfile : FileAmong c serde [b.vault] ({ b.trail with moments := [] } : Trail).disk := h.file
    obtain ⟨-, hlanded, -⟩ := fileCommit_moments a.bodyNonce a.faults next hfile
    exact ⟨⟨hnext.wrapped, hnext.formatVersion.trans h.version, hnext.nonempty h.nonempty,
      (hlanded hcommit).1⟩, hnext.shapes, hnext.entries⟩
  | failed e next hnext herr => cases hok

/-- An attempt that succeeds on an intact bench leaves it intact, with the slots
and the entries it was about. -/
theorem succeeds_intact (hc : c.Ideal) {b : Bench} (h : Intact c serde b) {a : Attempt}
    (hok : succeeds c serde b a) :
    Intact c serde (b.step c serde a) ∧
      (b.step c serde a).vault.slots.map Slot.shape = a.mutation.shapesAfter b.vault ∧
      (b.step c serde a).vault.entries =
        a.mutation.entriesAfter a.writeMs a.checkMs b.vault :=
  concluded_intact h a (apply_attempted hc h.wrapped a.mutation _) hok

theorem opening_intact (hc : c.Ideal) {draws : UnlockedVault.InitialDraws} {faults : Faults}
    {d d' : Disk} {vault : UnlockedVault}
    (h : UnlockedVault.initializeVault c serde draws faults d = (.ok vault, d')) :
    Intact c serde (opening vault draws.code d') := by
  obtain ⟨hfile, hinitial⟩ := opening_written h
  obtain ⟨vault', hinitial', hwrapped, hshapes, -, hversion⟩ := initial_wrapped hc draws
  rw [hinitial] at hinitial'
  cases hinitial'
  refine ⟨hwrapped, hversion, ?_, hfile⟩
  intro hnil
  rw [show vault.slots = [] from hnil] at hshapes
  cases hshapes

/-- After any run of successful mutations on a created vault, one more that
succeeds leaves a readable file if and only if it stayed within the limits in
the state it ran in; and the file the creation itself left is readable if and
only if it is within them. -/
theorem readable_iff_withinLimits (hc : c.Ideal) (serde : BodySerde)
    (draws : UnlockedVault.InitialDraws) (faults : Faults) (d d' : Disk) (vault : UnlockedVault)
    (h : UnlockedVault.initializeVault c serde draws faults d = (.ok vault, d')) :
    (serde.Lossless (VaultBody.new []) →
      (Readable c serde (opening vault draws.code d') ↔
        Limits [⟨draws.slot.slotId, .recovery, "", [], "recovery code", []⟩]
          (serde.toPlaintext (VaultBody.new [])).length)) ∧
      ∀ (attempts : List Attempt) (a : Attempt),
        let b := Transition.run (step c serde) (opening vault draws.code d') attempts
        Transition.Along (step c serde) (succeeds c serde) (opening vault draws.code d')
            (attempts ++ [a]) →
          serde.Lossless (b.step c serde a).vault.body →
            (Readable c serde (b.step c serde a) ↔ WithinLimits serde b a) := by
  have hopening := opening_intact hc h
  constructor
  · intro hserde
    obtain ⟨vault', hinitial', -, hshapes, hentries, -⟩ := initial_wrapped hc draws
    rw [(opening_written h).2] at hinitial'
    cases hinitial'
    have hbody : (opening vault draws.code d').vault.body = VaultBody.new [] := by
      show VaultBody.new (KeyMap.values vault.entries) = _
      rw [hentries]
      rfl
    rw [readable_iff_limits hc hopening (by rw [hbody]; exact hserde)]
    unfold UnlockedVault.plaintext
    rw [hbody, show (opening vault draws.code d').vault.slots = vault.slots from rfl, hshapes]
  · intro attempts a b halong hserde
    obtain ⟨hrun, hlast⟩ := (Transition.along_append _ _ _ _ _).mp halong
    have hintact : Intact c serde b :=
      Transition.run_invariant (step c serde) (I := Intact c serde)
        (fun b a hb ha => (succeeds_intact hc hb ha).1) _ attempts hrun hopening
    obtain ⟨hintact', hshapes, hentries⟩ := succeeds_intact hc hintact hlast.1
    rw [readable_iff_limits hc hintact' hserde]
    unfold WithinLimits UnlockedVault.plaintext UnlockedVault.body
    rw [hshapes, hentries]

section Plain

def plainOpening : Bench :=
  opening plainVault plainInitial.code
    ⟨some (plainVault.encodeWithDek plainCrypto plainSerde plainInitial.bodyNonce), none⟩

def plainSpare : Attempt := { plainAddition with faults := Faults.none }

theorem readable_iff_withinLimits_plain :
    Readable plainCrypto plainSerde plainOpening ∧
      Readable plainCrypto plainSerde (plainOpening.step plainCrypto plainSerde plainSpare) := by
  obtain ⟨hopening, hafter⟩ := readable_iff_withinLimits plainCrypto_ideal plainSerde plainInitial
    Faults.none ⟨none, none⟩ _ plainVault rfl
  constructor
  · refine (hopening rfl).mpr ⟨?_, ?_, ?_, ?_, ?_, ?_, ?_, ?_⟩ <;> decide
  · refine (hafter [] plainSpare ⟨rfl, trivial⟩ rfl).mpr ⟨?_, ?_, ?_, ?_, ?_, ?_, ?_, ?_⟩ <;>
      decide

/-- A passkey slot whose credential id is one byte longer than the reader takes. -/
def plainPasskey : Attempt where
  mutation := .addPasskeySlot (plainDraws 7) [1] (fill 32 9) "localhost"
    (List.replicate (maxSlotFieldLen + 1) 0) [2] "laptop"
  checkMs := 0
  writeMs := 0
  bodyNonce := fill 24 10
  faults := Faults.none

theorem long_credential_unreadable :
    UnlockedVault.initializeVault plainCrypto plainSerde plainInitial Faults.none ⟨none, none⟩ =
        (.ok plainVault, plainOpening.trail.disk) ∧
      succeeds plainCrypto plainSerde plainOpening plainPasskey ∧
      plainSerde.Lossless (plainOpening.step plainCrypto plainSerde plainPasskey).vault.body ∧
      ¬ Readable plainCrypto plainSerde
        (plainOpening.step plainCrypto plainSerde plainPasskey) := by
  have hok : succeeds plainCrypto plainSerde plainOpening plainPasskey := rfl
  have hserde : plainSerde.Lossless
    (plainOpening.step plainCrypto plainSerde plainPasskey).vault.body := rfl
  have hcreated : UnlockedVault.initializeVault plainCrypto plainSerde plainInitial Faults.none
    ⟨none, none⟩ = (.ok plainVault, plainOpening.trail.disk) := rfl
  have hopening : Intact plainCrypto plainSerde plainOpening :=
    opening_intact plainCrypto_ideal hcreated
  obtain ⟨hintact, hshapes, -⟩ := succeeds_intact plainCrypto_ideal hopening hok
  refine ⟨hcreated, hok, hserde, ?_⟩
  rw [readable_iff_limits plainCrypto_ideal hintact hserde, hshapes]
  intro hlimits
  have hlong := hlimits.credentialId _ (List.mem_append_right _ List.mem_cons_self)
  rw [List.length_replicate] at hlong
  exact absurd hlong (by decide)

end Plain

end Bench

end Vault

end CacheWarden
