import CacheWarden.Vault.Mutation
import CacheWarden.Lib.Transition

/-!
# The file under failing commits

A vault is created and then mutated, each commit failing at any step of the file
system's choosing. Ghosts keep the last state that was committed, those that
failed operations meant to write, and the credential each slot was built for.
-/

set_option autoImplicit false

namespace CacheWarden

namespace Vault

/-- The disk, the moments it went through during the last attempt, the state
last committed, and those that failed commits were to write. -/
structure Trail where
  disk : Disk
  moments : List Disk
  committed : UnlockedVault
  failed : List UnlockedVault

/-- One commit to the file. -/
def fileCommit (c : Crypto) (serde : BodySerde) (nonce : Nonce) (faults : Faults) : Commit Trail :=
  fun next trail =>
    let outcome := Storage.commit faults (next.encodeWithDek c serde nonce) trail.disk
    (outcome.result,
      { disk := outcome.disk
        moments := outcome.moments
        committed :=
          match outcome.result with
          | .ok () => next
          | .error _ => trail.committed
        failed :=
          match outcome.result with
          | .ok () => trail.failed
          | .error _ => next :: trail.failed })

/-- One call by some caller, with what it reads from the clock and draws, and
what the file system does to it. -/
structure Attempt where
  mutation : Mutation
  checkMs : UInt64
  writeMs : UInt64
  bodyNonce : Nonce
  faults : Faults

/-- The vault in memory, the credentials of its slots, and the disk. -/
structure Bench where
  vault : UnlockedVault
  credentials : List Bytes
  trail : Trail

namespace Bench

/-- The bench once the mutation has ended. -/
def concluded (b : Bench) (a : Attempt) (r : Except VaultError Unit × UnlockedVault × Trail) :
    Bench where
  vault := r.2.1
  credentials :=
    match r.1 with
    | .ok () => a.mutation.credentialsAfter b.vault b.credentials
    | .error _ => b.credentials
  trail := r.2.2

def attempt (c : Crypto) (serde : BodySerde) (b : Bench) (a : Attempt) :
    Except VaultError Unit × Bench :=
  let r := a.mutation.apply c (fileCommit c serde a.bodyNonce a.faults) a.checkMs a.writeMs b.vault
    { b.trail with moments := [] }
  (r.1, b.concluded a r)

def step (c : Crypto) (serde : BodySerde) (b : Bench) (a : Attempt) : Bench :=
  (b.attempt c serde a).2

/-- The bench right after a vault was created. -/
def opening (vault : UnlockedVault) (code : Key) (d : Disk) : Bench where
  vault := vault
  credentials := [code.1]
  trail := ⟨d, [], vault, []⟩

variable {c : Crypto} {serde : BodySerde}

theorem holds_of_mem {v : UnlockedVault} {credentials : List Bytes}
    (h : v.Wrapped c credentials) {slot : Slot} (hslot : slot ∈ v.slots) :
    ∃ secret, slot.Holds c v.vaultId v.formatVersion v.dek secret := by
  obtain ⟨i, hi, rfl⟩ := List.mem_iff_getElem.mp hslot
  have hlen : i < credentials.length := by
    rw [← h.length_eq]
    exact hi
  exact ⟨credentials[i], h.get hi hlen⟩

/-- The file is the whole encoding of a vault out of the list. -/
def FileAmong (c : Crypto) (serde : BodySerde) (vaults : List UnlockedVault) (d : Disk) : Prop :=
  ∃ v ∈ vaults, ∃ nonce, d.file = some (v.encodeWithDek c serde nonce)

theorem fileAmong_mono {vaults vaults' : List UnlockedVault} {d : Disk}
    (h : FileAmong c serde vaults d) (hsub : vaults ⊆ vaults') : FileAmong c serde vaults' d := by
  obtain ⟨v, hv, hfile⟩ := h
  exact ⟨v, hsub hv, hfile⟩

/-- What one commit does: at each of its moments the file is what it was or the
encoding of the state to write, and it is that one if the commit succeeds. -/
theorem fileCommit_moments (nonce : Nonce) (faults : Faults) (next : UnlockedVault) {trail : Trail}
    {vaults : List UnlockedVault} (h : FileAmong c serde vaults trail.disk) :
    let r := fileCommit c serde nonce faults next trail
    (∀ m ∈ r.2.disk :: r.2.moments, FileAmong c serde (next :: vaults) m) ∧
      (r.1 = .ok () → FileAmong c serde [next] r.2.disk ∧ r.2.committed = next ∧
        r.2.failed = trail.failed) ∧
      ∀ e, r.1 = .error e → r.2.committed = trail.committed ∧
        r.2.failed = next :: trail.failed := by
  intro r
  obtain ⟨hmoments, hdisk, hok⟩ :=
    Storage.commit_file faults (next.encodeWithDek c serde nonce) trail.disk
  have hone : ∀ m : Disk, m.file = trail.disk.file ∨
      m.file = some (next.encodeWithDek c serde nonce) →
      FileAmong c serde (next :: vaults) m := by
    rintro m (hm | hm)
    · obtain ⟨v, hv, n, hfile⟩ := h
      exact ⟨v, List.mem_cons_of_mem _ hv, n, hm.trans hfile⟩
    · exact ⟨next, List.mem_cons_self, nonce, hm⟩
  refine ⟨?_, ?_, ?_⟩
  · intro m hm
    rcases List.mem_cons.mp hm with rfl | hm
    · exact hone _ hdisk
    · exact hone m (hmoments m hm)
  · intro hresult
    have hresult' : (Storage.commit faults (next.encodeWithDek c serde nonce) trail.disk).result =
        .ok () := hresult
    refine ⟨⟨next, List.mem_singleton_self _, nonce, hok hresult'⟩, ?_, ?_⟩ <;>
      simp only [r, fileCommit, hresult']
  · intro e herr
    have herr' : (Storage.commit faults (next.encodeWithDek c serde nonce) trail.disk).result =
        .error e := herr
    constructor <;> simp only [r, fileCommit, herr']

theorem initial_wrapped (hc : c.Ideal) (draws : UnlockedVault.InitialDraws) :
    ∃ vault, UnlockedVault.initial c draws = .ok vault ∧ vault.Wrapped c [draws.code.1] ∧
      vault.slots.map Slot.shape = [⟨draws.slot.slotId, .recovery, "", [], "recovery code", []⟩] ∧
      vault.entries = ∅ ∧ vault.formatVersion = Vault.formatVersion := by
  obtain ⟨slot, hbuild, hholds, hid, hkind, hrp, hcred, hlabel, hpub⟩ :=
    buildSlot_ok hc draws.slot .recovery draws.dek draws.vaultId Vault.formatVersion draws.code.1
      draws.salt "" [] [] "recovery code"
  unfold UnlockedVault.initial
  rw [hbuild]
  refine ⟨_, rfl, .cons hholds .nil, ?_, rfl, rfl⟩
  simp [Slot.shape, hid, hkind, hrp, hcred, hlabel, hpub]

/-- A vault that was created is on disk. -/
theorem opening_written {draws : UnlockedVault.InitialDraws} {faults : Faults}
    {d d' : Disk} {vault : UnlockedVault}
    (h : UnlockedVault.initializeVault c serde draws faults d = (.ok vault, d')) :
    FileAmong c serde [vault] d' ∧ UnlockedVault.initial c draws = .ok vault := by
  unfold UnlockedVault.initializeVault at h
  split at h
  · cases h
  rename_i vault' hinitial
  simp only at h
  split at h
  · cases h
  · rename_i hok
    have hfile := Storage.createNew_ok _ _ _ hok
    cases h
    exact ⟨⟨vault, List.mem_singleton_self _, draws.bodyNonce, hfile⟩, hinitial⟩

section Plain

def fill (n : ℕ) (b : UInt8) : Block n := ⟨List.replicate n b, by simp⟩

def plainDraws (b : UInt8) : SlotDraws where
  slotId := fill 16 b
  recipientSecret := fill 32 b
  privkeyNonce := fill 24 b
  ephemeralSecret := fill 32 b
  dekNonce := fill 24 b
  createdAtEpochMs := 0

def plainInitial : UnlockedVault.InitialDraws where
  vaultId := fill 16 1
  dek := fill 32 2
  code := fill 32 3
  salt := fill 32 4
  slot := plainDraws 5
  bodyNonce := fill 24 6

def plainVault : UnlockedVault where
  vaultId := fill 16 1
  formatVersion := formatVersion
  dekGeneration := 1
  aeadAlg := .xChaCha20Poly1305
  kdfAlg := .hkdfSha256
  slots :=
    match UnlockedVault.initial plainCrypto plainInitial with
    | .ok vault => vault.slots
    | .error _ => []
  dek := fill 32 2
  entries := ∅
  keyed := keyed_empty

/-- A serializer of one body, the empty one. -/
def plainSerde : BodySerde where
  toPlaintext _ := "\x7b\"body_version\":1,\"entries\":[]\x7d".toUTF8.data.toList
  fromPlaintext _ := .ok (VaultBody.new [])

/-- A second recovery slot whose directory sync fails after the rename. -/
def plainAddition : Attempt where
  mutation := .addRecoverySlot (plainDraws 7) (fill 32 8) (fill 32 9) "spare"
  checkMs := 0
  writeMs := 0
  bodyNonce := fill 24 10
  faults := { Faults.none with syncDir := some "Input/output error" }

end Plain

end Bench

end Vault

end CacheWarden
