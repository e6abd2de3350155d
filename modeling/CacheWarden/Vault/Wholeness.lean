import CacheWarden.Vault.Ledger

/-!
# A whole file at every moment

A vault is created, mutated with commits that may fail at any step, and opened
again from its file by whoever holds a secret or the data key. What the file
holds is judged by its bytes: the header they start with lists slots that unwrap
to the key under which the rest opens, and the reader makes the same vault of
them.
-/

set_option autoImplicit false

namespace CacheWarden

namespace Vault

open Transition

/-- Built by credentials, in the current format, with a slot at least. -/
structure UnlockedVault.Openable (c : Crypto) (v : UnlockedVault) : Prop where
  wrapped : ∃ credentials, v.Wrapped c credentials
  version : v.formatVersion = Vault.formatVersion
  nonempty : v.slots ≠ []

/-- The slot unwraps, for the holder of its private key, to a key that opens the
sealed body to this text. -/
def Slot.Reaches (c : Crypto) (header : HeaderView) (slot : Slot)
    (headerAad sealedBody plaintext : Bytes) (dek : Key) : Prop :=
  ∃ recipientSecret, slot.pubkey = c.publicKey recipientSecret ∧
    c.unwrapDek slot.wrappedDek recipientSecret header.vaultId slot.id
      (slot.ownBindingAad header.vaultId header.formatVersion) = .ok dek.1 ∧
    c.open dek headerAad sealedBody "contents" = .ok plaintext

/-- The bytes are a complete file of the vault. -/
structure Whole (c : Crypto) (serde : BodySerde) (v : UnlockedVault) (bytes : Bytes) : Prop where
  written : v.slots ≠ [] ∧ ∃ sealedBody, bytes = encodeFile v.header.encode sealedBody ∧
    ∀ slot ∈ v.slots, slot.Reaches c v.header v.header.encode sealedBody (v.plaintext serde) v.dek
  read : ∀ locked, LockedVault.open (some bytes) = .ok locked →
    locked.file.header = v.header ∧ ∀ slot ∈ locked.file.slots,
      slot.Reaches c locked.file.header locked.headerAad locked.file.sealedBody
        (v.plaintext serde) v.dek
  opened : Limits (v.slots.map Slot.shape) (v.plaintext serde).length →
    ∃ locked, LockedVault.open (some bytes) = .ok locked ∧
      (serde.Lossless v.body → ∀ slot ∈ v.slots, ∃ secret,
        locked.unlockWithSecret c serde secret slot.kind = .ok v)

section Written

variable {c : Crypto} {serde : BodySerde} {v : UnlockedVault}

theorem UnlockedVault.Openable.same {w : UnlockedVault} (h : w.Openable c)
    (hheader : v.header = w.header) (hdek : v.dek = w.dek) : v.Openable c := by
  have hslots : v.slots = w.slots := congrArg HeaderView.slots hheader
  have hvaultId : v.vaultId = w.vaultId := congrArg HeaderView.vaultId hheader
  have hversion : v.formatVersion = w.formatVersion := congrArg HeaderView.formatVersion hheader
  obtain ⟨credentials, hwrapped⟩ := h.wrapped
  refine ⟨⟨credentials, ?_⟩, hversion.trans h.version, by rw [hslots]; exact h.nonempty⟩
  unfold UnlockedVault.Wrapped
  rw [hslots, hvaultId, hversion, hdek]
  exact hwrapped

theorem reaches_of_mem (hc : c.Ideal) (h : v.Openable c) (nonce : Nonce) {slot : Slot}
    (hslot : slot ∈ v.slots) :
    slot.Reaches c v.header v.header.encode (v.sealedBody c serde nonce) (v.plaintext serde)
      v.dek := by
  obtain ⟨credentials, hwrapped⟩ := h.wrapped
  obtain ⟨secret, hholds⟩ := Bench.holds_of_mem hwrapped hslot
  obtain ⟨recipientSecret, hpubkey, hunwrap⟩ := unwrapDek_of_holds hc hholds
  exact ⟨recipientSecret, hpubkey, hunwrap, open_seal hc _ _ _ _ _⟩

/-- What a commit writes of such a vault is whole. -/
theorem whole_encoded (hc : c.Ideal) (h : v.Openable c) (nonce : Nonce) :
    Whole c serde v (v.encodeWithDek c serde nonce) := by
  refine ⟨⟨h.nonempty, _, rfl, fun slot hslot => reaches_of_mem hc h nonce hslot⟩, ?_, ?_⟩
  · intro locked hopen
    obtain ⟨rfl, -⟩ := (open_written nonce).mp hopen
    exact ⟨rfl, fun slot hslot => reaches_of_mem hc h nonce hslot⟩
  · intro hlimits
    obtain ⟨credentials, hwrapped⟩ := h.wrapped
    have hfits := (fits_iff_limits nonce hc hwrapped h.version h.nonempty).mpr hlimits
    refine ⟨_, (open_written nonce).mpr ⟨rfl, hfits⟩, ?_⟩
    intro hserde slot hslot
    have hunlock := trySlots_of_holds nonce hc hserde hwrapped
    obtain ⟨i, hi, rfl⟩ := List.mem_iff_getElem.mp hslot
    have hi' : i < credentials.length := by
      rw [← hwrapped.length_eq]
      exact hi
    exact ⟨credentials[i], hunlock.get hi hi'⟩

/-- A secret that opens the file of a vault comes upon its data key. -/
theorem dek_of_trySlots (hc : c.Ideal) {nonce : Nonce} {slots : List Slot}
    {credentials : List Bytes} {inputSecret : Bytes} {kind : SlotKind} {v' : UnlockedVault}
    (h : List.Forall₂ (Slot.Holds c v.vaultId v.formatVersion v.dek) slots credentials)
    (hopen : (lockedOf c serde nonce v).trySlots c serde inputSecret kind slots = .ok v') :
    v'.dek = v.dek := by
  induction h with
  | nil => cases hopen
  | cons hslot _ ih =>
    unfold LockedVault.trySlots at hopen
    split at hopen
    · exact ih hopen
    split at hopen
    · exact ih hopen
    rename_i privkey hprivkey
    obtain ⟨recipientSecret, hpub, ⟨n, hpriv⟩, ephemeralSecret, n', hwrap⟩ := hslot
    rw [hpub] at hwrap
    rw [hpriv] at hprivkey
    have hkey : blockOf 32 recipientSecret.1 = some recipientSecret := by
      simp [blockOf, recipientSecret.2]
    have hdek : blockOf 32 v.dek.1 = some v.dek := by simp [blockOf, v.dek.2]
    rw [open_seal_sound hc hprivkey] at hopen
    simp only [LockedVault.unlockSlot, lockedOf, hkey, unwrapDek_wrapDek hc hwrap, hdek] at hopen
    split at hopen
    · cases hopen
    split at hopen
    · cases hopen
    · cases hopen
      rfl

theorem dek_of_unlockWithDek {locked : LockedVault} {dek : Bytes}
    (h : locked.unlockWithDek c serde dek = .ok v) : v.dek.1 = dek := by
  unfold LockedVault.unlockWithDek at h
  split at h
  · cases h
  rename_i key hkey
  split at h
  · cases h
  split at h
  · cases h
  · cases h
    exact (blockOf_some hkey).symm

end Written

/-- The vault in memory, and the trail of its file. -/
structure Custody where
  vault : UnlockedVault
  trail : Trail

inductive CustodyEvent where
  | attempt (a : Attempt)
  | reopen (u : Unlocking)

namespace Custody

variable (c : Crypto) (serde : BodySerde)

def handle (self : Custody) : CustodyEvent → Except VaultError Unit × Custody
  | .attempt a =>
    let r := a.mutation.apply c (fileCommit c serde a.bodyNonce a.faults) a.checkMs a.writeMs
      self.vault { self.trail with moments := [] }
    (r.1, ⟨r.2.1, r.2.2⟩)
  | .reopen u =>
    match LockedVault.open self.trail.disk.file with
    | .error e => (.error e, { self with trail := { self.trail with moments := [] } })
    | .ok locked =>
      match locked.unlockBy c serde u with
      | .error e => (.error e, { self with trail := { self.trail with moments := [] } })
      | .ok vault => (.ok (), ⟨vault, { self.trail with moments := [] }⟩)

def next (self : Custody) (event : CustodyEvent) : Custody := (self.handle c serde event).2

def opening (vault : UnlockedVault) (d : Disk) : Custody := ⟨vault, ⟨d, [], vault, []⟩⟩

/-- A data key that is handed over and opens the file is the one the file was
sealed under. -/
def Discerned (self : Custody) : CustodyEvent → Prop
  | .reopen (.dataKey dek) => ∀ v ∈ self.trail.committed :: self.trail.failed, ∀ nonce,
      self.trail.disk.file = some (v.encodeWithDek c serde nonce) → ∀ (key : Key) plaintext,
        key.1 = dek →
          c.open key v.header.encode (v.sealedBody c serde nonce) "contents" = .ok plaintext →
            key = v.dek
  | _ => True

/-- The disk holds a complete file of one of the vaults. -/
def Holding (vaults : List UnlockedVault) (d : Disk) : Prop :=
  ∃ v ∈ vaults, ∃ bytes, d.file = some bytes ∧ Whole c serde v bytes

/-- What an event keeps. If it fails, memory stays as it was. An attempt changes
memory only by committing the change. And at each of its moments the file is
complete: of the state committed before or after it, or of one that a failed
attempt intended. -/
structure Kept (s : Custody) (event : CustodyEvent) : Prop where
  failed : ∀ e, (s.handle c serde event).1 = .error e →
    (s.next c serde event).vault = s.vault ∧
      (s.next c serde event).trail.committed = s.trail.committed
  committed : ∀ a, event = .attempt a → (s.next c serde event).vault = s.vault ∧
      (s.next c serde event).trail.committed = s.trail.committed ∨
    (s.next c serde event).vault = (s.next c serde event).trail.committed
  moments : ∀ m ∈ (s.next c serde event).trail.moments,
    Holding c serde (s.trail.committed :: (s.next c serde event).trail.committed ::
      (s.next c serde event).trail.failed) m

/-- The vault in memory and every state that may be on disk can be opened, and
one of them is on disk. -/
structure Sound (s : Custody) : Prop where
  vault : s.vault.Openable c
  states : ∀ v ∈ s.trail.committed :: s.trail.failed, v.Openable c
  file : Bench.FileAmong c serde (s.trail.committed :: s.trail.failed) s.trail.disk

variable {c serde} {s : Custody}

theorem holding_of_fileAmong (hc : c.Ideal) {vaults : List UnlockedVault} {d : Disk}
    (hstates : ∀ v ∈ vaults, v.Openable c) (h : Bench.FileAmong c serde vaults d) :
    Holding c serde vaults d := by
  obtain ⟨v, hv, nonce, hfile⟩ := h
  exact ⟨v, hv, _, hfile, whole_encoded hc (hstates v hv) nonce⟩

theorem kept_of_attempted (hc : c.Ideal) (h : s.Sound c serde) (a : Attempt)
    {r : Except VaultError Unit × UnlockedVault × Trail}
    (hr : Attempted (fileCommit c serde a.bodyNonce a.faults) (UnlockedVault.Openable c)
      s.vault { s.trail with moments := [] } r) :
    Sound c serde ⟨r.2.1, r.2.2⟩ ∧
      (∀ e, r.1 = .error e → r.2.1 = s.vault ∧ r.2.2.committed = s.trail.committed) ∧
      (r.2.1 = s.vault ∧ r.2.2.committed = s.trail.committed ∨ r.2.1 = r.2.2.committed) ∧
      ∀ m ∈ r.2.2.moments,
        Holding c serde (s.trail.committed :: r.2.2.committed :: r.2.2.failed) m := by
  have hstates := h.states
  have hall : ∀ next, next.Openable c →
      ∀ v ∈ s.trail.committed :: next :: s.trail.failed, v.Openable c := by
    intro next hnext v hv
    rcases List.mem_cons.mp hv with rfl | hv
    · exact hstates _ List.mem_cons_self
    rcases List.mem_cons.mp hv with rfl | hv
    · exact hnext
    · exact hstates v (List.mem_cons_of_mem _ hv)
  have hcover : ∀ next, next :: s.trail.committed :: s.trail.failed ⊆
      s.trail.committed :: next :: s.trail.failed := by
    intro next v hv
    simp only [List.mem_cons] at hv ⊢
    tauto
  have hfile : Bench.FileAmong c serde (s.trail.committed :: s.trail.failed)
    ({ s.trail with moments := [] } : Trail).disk := h.file
  cases hr with
  | refused e =>
    exact ⟨⟨h.vault, hstates, h.file⟩, fun _ _ => ⟨rfl, rfl⟩, Or.inl ⟨rfl, rfl⟩, by simp⟩
  | settled x hself =>
    exact ⟨⟨h.vault, hstates, h.file⟩, fun _ _ => ⟨rfl, rfl⟩, Or.inl ⟨rfl, rfl⟩, by simp⟩
  | landed x next hnext hok =>
    obtain ⟨hmoments, hlanded, -⟩ := Bench.fileCommit_moments a.bodyNonce a.faults next hfile
    obtain ⟨hdisk, hcommitted, hfailed⟩ := hlanded hok
    refine ⟨⟨hnext, ?_, ?_⟩, by rintro e ⟨⟩, Or.inr hcommitted.symm, ?_⟩
    · intro v hv
      rw [hcommitted, hfailed] at hv
      exact hall next hnext v (List.mem_cons_of_mem _ hv)
    · rw [hcommitted]
      exact Bench.fileAmong_mono hdisk (List.cons_subset_cons _ (List.nil_subset _))
    · intro m hm
      rw [hcommitted, hfailed]
      exact holding_of_fileAmong hc (hall next hnext)
        (Bench.fileAmong_mono (hmoments m (List.mem_cons_of_mem _ hm)) (hcover next))
  | failed e next hnext herr =>
    obtain ⟨hmoments, -, hfail⟩ := Bench.fileCommit_moments a.bodyNonce a.faults next hfile
    obtain ⟨hcommitted, hfailed⟩ := hfail e herr
    refine ⟨⟨h.vault, ?_, ?_⟩, fun _ _ => ⟨rfl, hcommitted⟩, Or.inl ⟨rfl, hcommitted⟩, ?_⟩
    · intro v hv
      rw [hcommitted, hfailed] at hv
      exact hall next hnext v hv
    · rw [hcommitted, hfailed]
      exact Bench.fileAmong_mono (hmoments _ List.mem_cons_self) (hcover next)
    · intro m hm
      rw [hcommitted, hfailed]
      have hmoment := Bench.fileAmong_mono (hmoments m (List.mem_cons_of_mem _ hm)) (hcover next)
      obtain ⟨v, hv, hwhole⟩ := holding_of_fileAmong hc (hall next hnext) hmoment
      exact ⟨v, List.mem_cons_of_mem _ hv, hwhole⟩

theorem attempt_kept (hc : c.Ideal) (h : s.Sound c serde) (a : Attempt) :
    (s.next c serde (.attempt a)).Sound c serde ∧ s.Kept c serde (.attempt a) := by
  obtain ⟨credentials, hwrapped⟩ := h.vault.wrapped
  have hr : Attempted (fileCommit c serde a.bodyNonce a.faults)
      (Intended c a.mutation a.checkMs a.writeMs s.vault credentials) s.vault
      { s.trail with moments := [] } _ := apply_attempted hc hwrapped a.mutation _
  have hopenable := hr.mono fun next hnext => (⟨⟨_, hnext.wrapped⟩,
    hnext.formatVersion.trans h.vault.version, hnext.nonempty h.vault.nonempty⟩ : next.Openable c)
  obtain ⟨hsound, hfailed, hcommitted, hmoments⟩ := kept_of_attempted hc h a hopenable
  exact ⟨hsound, hfailed, fun _ _ => hcommitted, hmoments⟩

/-- What opens the file has the slots and the data key of the state on it. -/
theorem reopen_openable (hc : c.Ideal) (h : s.Sound c serde) {u : Unlocking}
    (hdiscerned : s.Discerned c serde (.reopen u)) {locked : LockedVault} {v : UnlockedVault}
    (hopen : LockedVault.open s.trail.disk.file = .ok locked)
    (hunlock : locked.unlockBy c serde u = .ok v) : v.Openable c := by
  obtain ⟨w, hw, nonce, hfile⟩ := h.file
  have hopenable := h.states w hw
  rw [hfile] at hopen
  obtain ⟨rfl, -⟩ := (open_written nonce).mp hopen
  apply hopenable.same (LockedVault.opened_of_unlockBy hunlock).header
  cases u with
  | secret inputSecret kind =>
    obtain ⟨credentials, hwrapped⟩ := hopenable.wrapped
    exact dek_of_trySlots hc hwrapped hunlock
  | dataKey dek =>
    obtain ⟨plaintext, hbody⟩ := (LockedVault.opened_of_unlockBy hunlock).body
    exact hdiscerned w hw nonce hfile v.dek plaintext (dek_of_unlockWithDek hunlock) hbody

theorem reopen_kept (hc : c.Ideal) (h : s.Sound c serde) {u : Unlocking}
    (hdiscerned : s.Discerned c serde (.reopen u)) :
    (s.next c serde (.reopen u)).Sound c serde ∧ s.Kept c serde (.reopen u) := by
  have hstill : Sound c serde { s with trail := { s.trail with moments := [] } } :=
    ⟨h.vault, h.states, h.file⟩
  cases hopen : LockedVault.open s.trail.disk.file with
  | error e =>
    have hhandle : s.handle c serde (.reopen u) =
        (.error e, { s with trail := { s.trail with moments := [] } }) := by
      simp only [handle, hopen]
    refine ⟨by rw [next, hhandle]; exact hstill, ?_, by rintro a ⟨⟩, ?_⟩ <;>
      simp [next, hhandle]
  | ok locked =>
    cases hunlock : locked.unlockBy c serde u with
    | error e =>
      have hhandle : s.handle c serde (.reopen u) =
          (.error e, { s with trail := { s.trail with moments := [] } }) := by
        simp only [handle, hopen, hunlock]
      refine ⟨by rw [next, hhandle]; exact hstill, ?_, by rintro a ⟨⟩, ?_⟩ <;>
        simp [next, hhandle]
    | ok v =>
      have hhandle : s.handle c serde (.reopen u) =
          (.ok (), ⟨v, { s.trail with moments := [] }⟩) := by
        simp only [handle, hopen, hunlock]
      have hopenable := reopen_openable hc h hdiscerned hopen hunlock
      refine ⟨by rw [next, hhandle]; exact ⟨hopenable, h.states, h.file⟩, ?_, by rintro a ⟨⟩, ?_⟩ <;>
        simp [next, hhandle]

theorem next_kept (hc : c.Ideal) (h : s.Sound c serde) {event : CustodyEvent}
    (hdiscerned : s.Discerned c serde event) :
    (s.next c serde event).Sound c serde ∧ s.Kept c serde event := by
  cases event with
  | attempt a => exact attempt_kept hc h a
  | reopen u => exact reopen_kept hc h hdiscerned

theorem sound_opening (hc : c.Ideal) {draws : UnlockedVault.InitialDraws} {faults : Faults}
    {d d' : Disk} {vault : UnlockedVault}
    (h : UnlockedVault.initializeVault c serde draws faults d = (.ok vault, d')) :
    (opening vault d').Sound c serde := by
  obtain ⟨hfile, hinitial⟩ := Bench.opening_written h
  obtain ⟨vault', hinitial', hwrapped, hshapes, -, hversion⟩ := Bench.initial_wrapped hc draws
  rw [hinitial] at hinitial'
  cases hinitial'
  have hopenable : vault.Openable c := by
    refine ⟨⟨_, hwrapped⟩, hversion, ?_⟩
    intro hnil
    rw [hnil] at hshapes
    cases hshapes
  exact ⟨hopenable, by simpa [opening] using hopenable, hfile⟩

/-- What holds of a run: every event of it keeps what it must, and in the end
the file is complete, of the state last committed or of one that a failed
attempt intended. -/
structure WholeThroughout (c : Crypto) (serde : BodySerde) (start : Custody)
    (events : List CustodyEvent) : Prop where
  kept : Along (next c serde) (Kept c serde) start events
  holding : Holding c serde
    ((run (next c serde) start events).trail.committed ::
      (run (next c serde) start events).trail.failed) (run (next c serde) start events).trail.disk

theorem whole_throughout (hc : c.Ideal) (serde : BodySerde) (draws : UnlockedVault.InitialDraws)
    (faults : Faults) (d d' : Disk) (vault : UnlockedVault)
    (h : UnlockedVault.initializeVault c serde draws faults d = (.ok vault, d'))
    (events : List CustodyEvent)
    (hdiscerned : Along (next c serde) (Discerned c serde) (opening vault d') events) :
    WholeThroughout c serde (opening vault d') events := by
  have hstep := fun s event (h : Sound c serde s) (hd : s.Discerned c serde event) =>
    (next_kept hc h hd).1
  have hend := run_invariant _ hstep _ events hdiscerned (sound_opening hc h)
  exact ⟨along_of_invariant _ hstep (fun s event h hd => (next_kept hc h hd).2) _ events hdiscerned
    (sound_opening hc h), holding_of_fileAmong hc hend.states hend.file⟩

section Plain

def plainRotation : RotationDraws :=
  ⟨Bench.fill 32 11, fun _ => Bench.fill 32 12, fun _ => Bench.fill 24 13⟩

/-- A spare slot is added, and its commit fails after the rename. The file is
opened with the spare code, the data key is rotated, and the file is opened with
the new key. -/
def plainEvents : List CustodyEvent :=
  [.attempt Bench.plainAddition, .reopen (.secret (Bench.fill 32 8).1 .recovery),
    .attempt { Bench.plainAddition with mutation := .rotateDek plainRotation, faults := .none },
    .reopen (.dataKey plainRotation.dek.1)]

def plainOpened : Custody :=
  opening Bench.plainVault ⟨some (Bench.plainVault.encodeWithDek plainCrypto Bench.plainSerde
    Bench.plainInitial.bodyNonce), none⟩

def plainRotated : Custody :=
  run (next plainCrypto Bench.plainSerde) plainOpened (plainEvents.take 3)

set_option maxRecDepth 20000 in
theorem plainRotated_deks :
    (plainRotated.trail.committed :: plainRotated.trail.failed).map UnlockedVault.dek =
      [plainRotation.dek, Bench.plainVault.dek] := rfl

theorem plainCrypto_open {key key' : Key} {nonce : Nonce} {aad text plaintext : Bytes}
    {stage : String}
    (h : plainCrypto.open key' aad (plainCrypto.seal key nonce aad text) stage = .ok plaintext) :
    key.1.take 16 = key'.1.take 16 := by
  have hlen : (key.1.take 16).length = 16 := by simp [key.2]
  rw [open_seal_eq plainCrypto_ideal] at h
  simp only [plainCrypto, List.take_left' hlen] at h
  split at h
  · rename_i p hp
    split at hp
    · assumption
    · cases hp
  · cases h

theorem plainRotated_discerned : plainRotated.Discerned plainCrypto Bench.plainSerde
    (.reopen (.dataKey plainRotation.dek.1)) := by
  intro v hv nonce hfile key plaintext hkey hopen
  have hdek : v.dek ∈ [plainRotation.dek, Bench.plainVault.dek] := by
    rw [← plainRotated_deks]
    exact List.mem_map_of_mem hv
  have htake := plainCrypto_open hopen
  rw [hkey] at htake
  simp only [List.mem_cons, List.not_mem_nil, or_false] at hdek
  rcases hdek with hdek | hdek
  · rw [hdek]
    exact Subtype.ext hkey
  · rw [hdek] at htake
    exact absurd htake (by decide)

theorem whole_throughout_plain :
    WholeThroughout plainCrypto Bench.plainSerde plainOpened plainEvents :=
  whole_throughout plainCrypto_ideal Bench.plainSerde Bench.plainInitial Faults.none ⟨none, none⟩ _
    Bench.plainVault rfl plainEvents ⟨trivial, trivial, trivial, plainRotated_discerned, trivial⟩

end Plain

end Custody

end Vault

end CacheWarden
