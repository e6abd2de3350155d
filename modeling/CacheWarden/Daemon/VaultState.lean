import CacheWarden.Vault.Readback

/-!
# The daemon's view of the encrypted vault

The vault has three states to the daemon, and the file at its path holds
nothing, the encoding of a vault, or bytes that are no vault. `Stored` is that
file as what it holds; the theorems at the end tie each operation on it to the
one on bytes.
-/

set_option autoImplicit false

namespace CacheWarden

namespace Daemon

open Vault

/-- The file at the vault's path. Bytes that do not open carry the error reading
them gives. -/
inductive Stored where
  | absent
  | holds (vault : UnlockedVault)
  | damaged (e : VaultError)

/-- How one commit goes. A failed one may have landed all the same. -/
inductive CommitOutcome where
  | done
  | failed (e : VaultError) (landed : Bool)
  deriving DecidableEq

/-- An error of a commit is one of the file system. -/
def CommitOutcome.OfFile : CommitOutcome → Prop
  | .done => True
  | .failed e _ => ∃ path reason, e = .io path reason

/-- How the creation of a vault goes, where no file is in its way. One that is
abandoned leaves a file behind: the vault's, or part of it. -/
inductive Creation where
  | created (vault : UnlockedVault) (code : Key) (empty : vault.entries = ∅)
  | refused (e : VaultError)
  | abandoned (e : VaultError) (vault : UnlockedVault) (empty : vault.entries = ∅)
  | broken (e left : VaultError)

inductive VaultInitError where
  | alreadyExists
  | vault (e : VaultError)
  deriving DecidableEq

inductive VaultUnlockError where
  | notInitialized
  | vault (e : VaultError)
  deriving DecidableEq

inductive VaultState where
  | notInitialized
  | locked
  | unlocked (vault : UnlockedVault)

namespace Stored

def commitTo (outcome : CommitOutcome) : Commit Stored := fun next stored =>
  match outcome with
  | .done => (.ok (), .holds next)
  | .failed e true => (.error e, .holds next)
  | .failed e false => (.error e, stored)

def createIn (creation : Creation) (stored : Stored) :
    Except VaultError (UnlockedVault × Key) × Stored :=
  match stored, creation with
  | .absent, .created vault code _ => (.ok (vault, code), .holds vault)
  | .absent, .abandoned e vault _ => (.error e, .holds vault)
  | .absent, .broken e left => (.error e, .damaged left)
  | stored, .refused e => (.error e, stored)
  | stored, _ => (.error (.io .file "File exists"), stored)

/-- Read the file and open it with a credential. `opened` is what that comes to
where the file holds a vault. -/
def unlockWith (opened : Except VaultError Unit) : Stored → Except VaultError UnlockedVault
  | .absent => .error (.io .file "No such file or directory")
  | .damaged e => .error e
  | .holds vault =>
    match opened with
    | .error e => .error e
    | .ok () => .ok vault

/-- Classify the file. A missing one is no error. -/
def openAt (opened : Except VaultError Unit) : Stored → Except VaultError VaultState
  | .absent => .ok .notInitialized
  | .damaged e => .error e
  | .holds _ =>
    match opened with
    | .error e => .error e
    | .ok () => .ok .locked

end Stored

namespace VaultState

def unlockedVault : VaultState → Option UnlockedVault
  | .unlocked vault => some vault
  | _ => none

/-- Create the vault and leave it open. -/
def init (creation : Creation) (self : VaultState) (stored : Stored) :
    Except VaultInitError (VaultId × Key) × VaultState × Stored :=
  match self with
  | .notInitialized =>
    match stored.createIn creation with
    | (.ok (vault, code), stored) => (.ok (vault.vaultId, code), .unlocked vault, stored)
    | (.error e, stored) => (.error (.vault e), self, stored)
  | _ => (.error .alreadyExists, self, stored)

/-- Open the vault from its file. An open vault stays as it is. -/
def unlock (opened : Except VaultError Unit) (self : VaultState) (stored : Stored) :
    Except VaultUnlockError Unit × VaultState :=
  match self with
  | .unlocked _ => (.ok (), self)
  | .notInitialized => (.error .notInitialized, self)
  | .locked =>
    match stored.unlockWith opened with
    | .ok vault => (.ok (), .unlocked vault)
    | .error e => (.error (.vault e), self)

def lock (opened : Except VaultError Unit) (self : VaultState) (stored : Stored) :
    Except VaultError Unit × VaultState :=
  match self with
  | .unlocked _ =>
    match stored.openAt opened with
    | .ok state => (.ok (), state)
    | .error e => (.error e, self)
  | _ => (.ok (), self)

end VaultState

section Refinement

variable {c : Crypto} {serde : BodySerde}

/-- The bytes on disk hold what `stored` says. -/
def Shows (c : Crypto) (serde : BodySerde) (d : Disk) : Stored → Prop
  | .absent => d.file = none
  | .holds v => ∃ nonce, d.file = some (v.encodeWithDek c serde nonce)
  | .damaged e => ∃ bytes, d.file = some bytes ∧ LockedVault.open d.file = .error e

theorem shows_of_file {d d' : Disk} {stored : Stored} (h : Shows c serde d stored)
    (hfile : d'.file = d.file) : Shows c serde d' stored := by
  cases stored <;> unfold Shows at h ⊢ <;> rw [hfile] <;> exact h

/-- A commit on bytes is one on what they hold. -/
theorem fileCommit_refines (nonce : Nonce) (faults : Faults) (next : UnlockedVault)
    (trail : Trail) {stored : Stored} (h : Shows c serde trail.disk stored) :
    ∃ outcome : CommitOutcome, outcome.OfFile ∧ (fileCommit c serde nonce faults next trail).1 =
        (Stored.commitTo outcome next stored).1 ∧
      Shows c serde (fileCommit c serde nonce faults next trail).2.disk
        (Stored.commitTo outcome next stored).2 := by
  obtain ⟨-, hdisk, hok⟩ :=
    Storage.commit_file faults (next.encodeWithDek c serde nonce) trail.disk
  have herror := @Storage.commit_error faults (next.encodeWithDek c serde nonce) trail.disk
  show ∃ outcome : CommitOutcome, outcome.OfFile ∧ (Storage.commit faults (next.encodeWithDek c serde nonce) trail.disk).result =
      (Stored.commitTo outcome next stored).1 ∧
    Shows c serde (Storage.commit faults (next.encodeWithDek c serde nonce) trail.disk).disk
      (Stored.commitTo outcome next stored).2
  generalize Storage.commit faults (next.encodeWithDek c serde nonce) trail.disk = written at *
  cases hresult : written.result with
  | ok u => exact ⟨.done, trivial, rfl, nonce, hok hresult⟩
  | error e =>
    rcases hdisk with hold | hnew
    · exact ⟨.failed e false, herror hresult, rfl, shows_of_file h hold⟩
    · exact ⟨.failed e true, herror hresult, rfl, nonce, hnew⟩

/-- A creation that succeeds where there was no file leaves the new vault in it. -/
theorem initializeVault_refines {draws : UnlockedVault.InitialDraws} {faults : Faults} {d d' : Disk}
    {vault : UnlockedVault} (hc : c.Ideal)
    (h : UnlockedVault.initializeVault c serde draws faults d = (.ok vault, d')) :
    ∃ creation, Stored.createIn creation .absent = (.ok (vault, draws.code), .holds vault) ∧
      Shows c serde d' (.holds vault) := by
  obtain ⟨⟨v, hv, hfile⟩, hinitial⟩ := Bench.opening_written h
  rw [List.mem_singleton] at hv
  subst hv
  obtain ⟨vault', hinitial', -, -, hempty, -⟩ := Bench.initial_wrapped hc draws
  rw [hinitial] at hinitial'
  cases hinitial'
  exact ⟨.created _ draws.code hempty, rfl, hfile⟩

/-- Opening the bytes with any credential gives the vault they hold, or fails. -/
theorem unlock_refines (hc : c.Ideal) {d : Disk} {stored : Stored} (h : Shows c serde d stored)
    (hvault : ∀ v, stored = .holds v → serde.Lossless v.body ∧
      v.formatVersion = Vault.formatVersion ∧ v.slots ≠ [] ∧ (∃ credentials, v.Wrapped c credentials) ∧
      Limits (v.slots.map Slot.shape) (v.plaintext serde).length)
    (secret : Bytes) (kind : SlotKind) :
    ∃ opened, (LockedVault.open d.file).bind
      (fun locked => locked.unlockWithSecret c serde secret kind) = stored.unlockWith opened := by
  cases stored with
  | absent =>
    refine ⟨.ok (), ?_⟩
    rw [show d.file = none from h]
    rfl
  | damaged e =>
    obtain ⟨bytes, -, hopen⟩ := h
    refine ⟨.ok (), ?_⟩
    rw [hopen]
    rfl
  | holds v =>
    obtain ⟨nonce, hfile⟩ := h
    obtain ⟨hserde, hversion, hne, ⟨credentials, hw⟩, hlimits⟩ := hvault v rfl
    have hfits := (fits_iff_limits nonce hc hw hversion hne).mpr hlimits
    have hopen : LockedVault.open d.file = .ok (lockedOf c serde nonce v) := by
      rw [hfile]
      exact (open_written nonce).mpr ⟨rfl, hfits⟩
    rw [hopen]
    cases hunlock : (lockedOf c serde nonce v).unlockWithSecret c serde secret kind with
    | error e => exact ⟨.error e, hunlock⟩
    | ok v' =>
      refine ⟨.ok (), hunlock.trans ?_⟩
      rw [trySlots_sound nonce hc hserde hw hunlock]
      rfl

/-- Classifying the bytes is classifying what they hold. -/
theorem openAt_refines {d : Disk} {stored : Stored} (h : Shows c serde d stored) :
    ∃ opened, stored.openAt opened =
      match d.file with
      | none => .ok .notInitialized
      | some bytes => (LockedVault.open (some bytes)).map fun _ => VaultState.locked := by
  cases stored with
  | absent =>
    refine ⟨.ok (), ?_⟩
    rw [show d.file = none from h]
    rfl
  | damaged e =>
    obtain ⟨bytes, hfile, hopen⟩ := h
    refine ⟨.ok (), ?_⟩
    rw [hfile] at hopen ⊢
    simp only [hopen]
    rfl
  | holds v =>
    obtain ⟨nonce, hfile⟩ := h
    rw [hfile]
    simp only
    cases LockedVault.open (some (v.encodeWithDek c serde nonce)) with
    | ok locked => exact ⟨.ok (), rfl⟩
    | error e => exact ⟨.error e, rfl⟩

end Refinement

end Daemon

end CacheWarden
