import CacheWarden.Daemon.Handler
import CacheWarden.SnapshotRoundTrip

/-!
# What an unlock restores

An entry of the vault comes back with its value, its version, and whatever
guard, owner and claim it carries. What the store had under the name before
stays wherever the vault's entry carries nothing in its place.
-/

set_option autoImplicit false

namespace CacheWarden

namespace Daemon

open Vault Store

/-- What the slot of a vault entry holds, if it can be read. -/
def slotValue {α : Type} : Option (JsonSlot α) → Option α
  | some (.value a) => some a
  | _ => none

def restoredTtl (e : VaultEntry) : Ttl :=
  ⟨(e.definition.bind VaultDefinition.softTtlMs).map Duration.fromMillis, none,
    by rintro _ _ _ ⟨⟩⟩

def restoredGuard (e : VaultEntry) : Option GuardRecord :=
  (slotValue e.guard).map snapshotToGuardRecord

def restoredOwner (e : VaultEntry) : Option OwnerPrincipal := slotValue e.owner

def restoredClaim (e : VaultEntry) (wall : UInt64) : Option RefreshClaim :=
  (e.activeClaim wall).map fun c => ⟨c.token.asStr, c.claimedAtEpochMs, c.expiresAtEpochMs⟩

/-- An entry the installer counts as restored: its name is well formed, and its
authorization can be read. -/
structure Restorable (e : VaultEntry) : Prop where
  valid : ValidKey e.key
  guard : ∀ text, e.guard ≠ some (.foreign text)
  owner : ∀ text, e.owner ≠ some (.foreign text)

instance (e : VaultEntry) : Decidable (Restorable e) :=
  decidable_of_iff
    (ValidKey e.key ∧ (readSlot e.guard).toBool = true ∧ (readSlot e.owner).toBool = true) (by
      have hread : ∀ {α : Type} (slot : Option (JsonSlot α)),
          (readSlot slot).toBool = true ↔ ∀ text, slot ≠ some (.foreign text) := by
        intro α slot
        rcases slot with _ | ⟨a⟩ | ⟨text⟩ <;> simp [readSlot, Except.toBool]
      rw [hread, hread]
      exact ⟨fun h => ⟨h.1, h.2.1, h.2.2⟩, fun h => ⟨h.valid, h.guard, h.owner⟩⟩)

theorem readSlot_ok_iff {α : Type} {slot : Option (JsonSlot α)} {a : Option α} :
    readSlot slot = .ok a ↔ slotValue slot = a ∧ ∀ text, slot ≠ some (.foreign text) := by
  rcases slot with _ | ⟨b⟩ | ⟨text⟩ <;> simp [readSlot, slotValue]

/-- What an installed entry leaves under its name. -/
def restoredSlice (before : KeySlice) (e : VaultEntry) (now : Monotonic) (wall : UInt64) :
    KeySlice where
  entry := some (CacheEntry.new .static e.secret (restoredTtl e) now)
  definition := before.definition
  failure := before.failure
  guard := (restoredGuard e).or before.guard
  owner := (restoredOwner e).or before.owner
  version :=
    let installed := max (before.version.getD 0) e.casVersion
    if 0 < installed then some installed else before.version
  claim := (restoredClaim e wall).or before.claim

section One

variable {store : Store} {cap : Capability}

/-- The store with an entry of the vault in it. -/
def restoredStore (store : Store) (e : VaultEntry) (now : Monotonic) (wall : UInt64) : Store :=
  let installed := max (store.versionOf e.key) e.casVersion
  { store with
    entries := store.entries.insert e.key (CacheEntry.new .static e.secret (restoredTtl e) now)
    versions :=
      KeyMap.insertOpt store.versions e.key (if 0 < installed then some installed else none)
    accessGuards := KeyMap.insertOpt store.accessGuards e.key (restoredGuard e)
    owners := KeyMap.insertOpt store.owners e.key (restoredOwner e)
    refreshClaims := KeyMap.insertOpt store.refreshClaims e.key (restoredClaim e wall) }

theorem restoredStore_slice (e : VaultEntry) (now : Monotonic) (wall : UInt64) (k : String) :
    (restoredStore store e now wall).slice k =
      if e.key = k then restoredSlice (store.slice k) e now wall else store.slice k := by
  by_cases hk : e.key = k
  · subst hk
    by_cases hpos : 0 < max (store.versions[e.key]?.getD 0) e.casVersion <;>
      simp [restoredStore, slice, restoredSlice, KeyMap.get_insertOpt, versionOf, hpos]
  · simp [restoredStore, slice, KeyMap.get_insert, KeyMap.get_insertOpt, hk]

theorem restoreVersion_eq (hcap : store.checkCap cap = .ok ()) (key : String) (version : UInt64) :
    store.restoreVersion key version cap =
      (.ok (max (store.versionOf key) version),
        { store with
          versions := KeyMap.insertOpt store.versions key
            (if 0 < max (store.versionOf key) version then some (max (store.versionOf key) version)
              else none) }) := by
  unfold restoreVersion
  rw [hcap]
  simp only
  split <;> rfl

theorem installClaim_eq (hcap : store.checkCap cap = .ok ()) (key : String) (e : VaultEntry)
    (wall : UInt64) :
    installClaim store key (e.activeClaim wall) cap =
      { store with
        refreshClaims := KeyMap.insertOpt store.refreshClaims key (restoredClaim e wall) } := by
  unfold installClaim restoredClaim
  cases e.activeClaim wall with
  | none => rfl
  | some c =>
    unfold setRefreshClaim
    rw [hcap]
    rfl

theorem finishInstall_eq (hcap : store.checkCap cap = .ok ()) (wall : UInt64) (key : String)
    (e : VaultEntry) (owner : Option OwnerPrincipal) :
    installVaultEntry.finishInstall cap wall key e store owner =
      (true,
        { store with
          owners := KeyMap.insertOpt store.owners key owner
          refreshClaims := KeyMap.insertOpt store.refreshClaims key (restoredClaim e wall) }) := by
  unfold installVaultEntry.finishInstall
  cases owner with
  | none =>
    simp only
    rw [installClaim_eq hcap]
    rfl
  | some principal =>
    have hset : store.setOwner key principal cap =
        (.ok (), { store with owners := store.owners.insert key principal }) := by
      unfold setOwner
      rw [hcap]
    simp only [hset]
    rw [installClaim_eq (show ({ store with owners := store.owners.insert key principal } :
      Store).checkCap cap = .ok () from hcap)]
    rfl

/-- One entry is restored whole, or, if it cannot be, nothing happens. -/
theorem installVaultEntry_eq (hcap : store.checkCap cap = .ok ()) (now : Monotonic) (wall : UInt64)
    {key : String} {e : VaultEntry} (hkey : e.key = key) :
    (Restorable e ∧
        installVaultEntry store cap now wall key e = (true, restoredStore store e now wall)) ∨
      (¬ Restorable e ∧ installVaultEntry store cap now wall key e = (false, store)) := by
  subst hkey
  have httl : Ttl.new ((e.definition.bind VaultDefinition.softTtlMs).map Duration.fromMillis) none =
      .ok (restoredTtl e) := (Ttl.new_ok_iff _ _ _).mpr ⟨rfl, rfl⟩
  unfold installVaultEntry
  rw [httl]
  simp only
  cases hguard : readSlot e.guard with
  | error u =>
    right
    refine ⟨fun h => ?_, rfl⟩
    have hok := readSlot_ok_iff.mpr ⟨rfl, h.guard⟩
    rw [hguard] at hok
    cases hok
  | ok guard =>
    cases howner : readSlot e.owner with
    | error u =>
      right
      refine ⟨fun h => ?_, rfl⟩
      have hok := readSlot_ok_iff.mpr ⟨rfl, h.owner⟩
      rw [howner] at hok
      cases hok
    | ok owner =>
      obtain ⟨hguardValue, hguardRead⟩ := readSlot_ok_iff.mp hguard
      obtain ⟨hownerValue, hownerRead⟩ := readSlot_ok_iff.mp howner
      simp only
      by_cases hvalid : ValidKey e.key
      · left
        refine ⟨⟨hvalid, hguardRead, hownerRead⟩, ?_⟩
        have hset : store.set e.key .static e.secret (restoredTtl e) cap now =
            (.ok (), store.putEntry e.key (CacheEntry.new .static e.secret (restoredTtl e) now)) := by
          unfold Store.set
          rw [hcap]
          simp only
          rw [show validateKeySyntax e.key = .ok () from hvalid]
        rw [hset]
        simp only
        rw [restoreVersion_eq (show (store.putEntry e.key _).checkCap cap = .ok () from hcap)]
        simp only
        unfold restoredStore restoredGuard restoredOwner
        rw [hguardValue, hownerValue]
        cases guard with
        | none =>
          simp only
          rw [finishInstall_eq (show ({ store.putEntry e.key _ with versions := _ } : Store).checkCap
            cap = .ok () from hcap)]
          rfl
        | some record =>
          simp only [setGuard]
          rw [show ({ store.putEntry e.key (CacheEntry.new .static e.secret (restoredTtl e) now) with
            versions := _ } : Store).checkCap cap = .ok () from hcap]
          simp only
          rw [finishInstall_eq (show ({ store.putEntry e.key _ with
            versions := _, accessGuards := _ } : Store).checkCap cap = .ok () from hcap)]
          rfl
      · right
        refine ⟨fun h => hvalid h.valid, ?_⟩
        have hset : ∃ err, store.set e.key .static e.secret (restoredTtl e) cap now =
            (.error err, store) := by
          unfold Store.set
          rw [hcap, validateKeySyntax_eq, if_neg hvalid]
          exact ⟨_, rfl⟩
        obtain ⟨err, hset⟩ := hset
        rw [hset]

end One

section All

variable {cap : Capability} {clock : Clock} {wall : ℕ → UInt64} {vault : UnlockedVault}

/-- What an unlock does to the slice of one key, `i` being the reading of the
clocks its entry is installed at. -/
def installedSlice (vault : UnlockedVault) (clock : Clock) (wall : ℕ → UInt64) (i : ℕ) (k : String)
    (before : KeySlice) : KeySlice :=
  match vault.entry k with
  | none => before
  | some e => if Restorable e then restoredSlice before e (clock.now i) (wall i) else before

theorem installEntries_slice (clock : Clock) (wall : ℕ → UInt64) (vault : UnlockedVault)
    {keys : List String} (hnodup : keys.Nodup) (i : ℕ) {store : Store} (hcap : store.checkCap cap = .ok ()) (k : String) :
    let after := (installEntries cap clock wall vault i keys store).2
    after.checkCap cap = .ok () ∧ after.accessToken = store.accessToken ∧
      after.slice k =
        if k ∈ keys then
          installedSlice vault clock wall (i + keys.idxOf k) k (store.slice k)
        else store.slice k := by
  induction keys generalizing i store with
  | nil => exact ⟨hcap, rfl, rfl⟩
  | cons key keys ih =>
    rw [List.nodup_cons] at hnodup
    intro after
    have hshift : k ∈ keys → i + (key :: keys).idxOf k = i + 1 + keys.idxOf k := by
      intro hk
      have hne : key ≠ k := fun heq => hnodup.1 (heq ▸ hk)
      rw [List.idxOf_cons_ne _ hne]
      omega
    have hself : k = key → k ∉ keys := fun heq hk => hnodup.1 (heq ▸ hk)
    cases he : vault.entry key with
    | none =>
      have hafter : after = (installEntries cap clock wall vault (i + 1) keys store).2 := by
        simp only [after, installEntries, he]
      obtain ⟨hcap', htoken, hslice⟩ := ih hnodup.2 (i := i + 1) hcap
      rw [hafter]
      refine ⟨hcap', htoken, hslice.trans ?_⟩
      by_cases hk : k ∈ keys
      · rw [if_pos hk, if_pos (List.mem_cons_of_mem _ hk), hshift hk]
      · rw [if_neg hk]
        split
        · rename_i hmem
          rcases List.mem_cons.mp hmem with rfl | hmem
          · unfold installedSlice
            rw [he]
          · exact absurd hmem hk
        · rfl
    | some e =>
      have hkey := UnlockedVault.key_of_entry he
      have hinstalled := installVaultEntry_eq hcap (clock.now i) (wall i) hkey
      have hone : (installVaultEntry store cap (clock.now i) (wall i) key e).2.checkCap cap =
            .ok () ∧
          (installVaultEntry store cap (clock.now i) (wall i) key e).2.accessToken =
            store.accessToken ∧
          (installVaultEntry store cap (clock.now i) (wall i) key e).2.slice k =
            if k = key then installedSlice vault clock wall i k (store.slice k)
            else store.slice k := by
        rcases hinstalled with ⟨hr, heq⟩ | ⟨hr, heq⟩
        · rw [heq]
          refine ⟨hcap, rfl, ?_⟩
          simp only
          rw [restoredStore_slice, hkey]
          by_cases hk : k = key
          · subst hk
            rw [if_pos rfl, if_pos rfl]
            unfold installedSlice
            rw [he]
            simp only
            rw [if_pos hr]
          · rw [if_neg hk, if_neg (Ne.symm hk)]
        · rw [heq]
          refine ⟨hcap, rfl, ?_⟩
          simp only
          split
          · rename_i hk
            subst hk
            unfold installedSlice
            rw [he]
            simp only
            rw [if_neg hr]
          · rfl
      have hafter : after = (installEntries cap clock wall vault (i + 1) keys
          (installVaultEntry store cap (clock.now i) (wall i) key e).2).2 := by
        simp only [after, installEntries, he]
      obtain ⟨hcap', htoken, hslice⟩ := ih hnodup.2 (i := i + 1) hone.1
      rw [hafter]
      refine ⟨hcap', htoken.trans hone.2.1, hslice.trans ?_⟩
      rw [hone.2.2]
      by_cases hk : k ∈ keys
      · have hne : k ≠ key := fun heq => hself heq hk
        rw [if_pos hk, if_pos (List.mem_cons_of_mem _ hk), hshift hk, if_neg hne]
      · rw [if_neg hk]
        by_cases hkey' : k = key
        · subst hkey'
          rw [if_pos rfl, if_pos List.mem_cons_self, List.idxOf_cons_self, Nat.add_zero]
        · rw [if_neg hkey', if_neg]
          simp [hkey', hk]

/-- The slice of every key after an unlock. -/
theorem installVaultEntries_slice (clock : Clock) (wall : ℕ → UInt64) (vault : UnlockedVault)
    {store : Store} (hcap : store.checkCap cap = .ok ()) (k : String) :
    (installVaultEntries store cap clock wall vault).2.slice k =
      installedSlice vault clock wall (vault.entries.keys.idxOf k) k (store.slice k) := by
  obtain ⟨-, -, hslice⟩ :=
    installEntries_slice clock wall vault (KeyMap.nodup_keys vault.entries) 0 hcap k
  unfold installVaultEntries
  rw [hslice, Nat.zero_add]
  split
  · rfl
  · rename_i hk
    rw [KeyMap.mem_keys_iff] at hk
    have hnone : vault.entry k = none := by simpa [UnlockedVault.entry] using hk
    unfold installedSlice
    rw [hnone]

/-- The reply counts the entries that came back. -/
theorem installEntries_count {keys : List String} {i : ℕ} {store : Store}
    (hcap : store.checkCap cap = .ok ()) :
    (installEntries cap clock wall vault i keys store).1 =
      (keys.filterMap vault.entry).countP (Restorable ·) := by
  induction keys generalizing i store with
  | nil => rfl
  | cons key keys ih =>
    cases he : vault.entry key with
    | none =>
      simp only [installEntries, he, List.filterMap_cons]
      exact ih hcap
    | some e =>
      have hkey := UnlockedVault.key_of_entry he
      simp only [installEntries, he, List.filterMap_cons, List.countP_cons]
      rcases installVaultEntry_eq hcap (clock.now i) (wall i) hkey with ⟨hr, heq⟩ | ⟨hr, heq⟩
      · rw [heq, ih (show (restoredStore store e (clock.now i) (wall i)).checkCap cap = .ok () from
          hcap)]
        simp [hr]
      · rw [heq, ih hcap]
        simp [hr]

end All

section Exactly

variable (store : Store) (clock : Clock) (wall : ℕ → UInt64) (vault : UnlockedVault)

/-- The reading of the clocks at which the entry of a key is installed. -/
def installedAt (vault : UnlockedVault) (k : String) : ℕ := vault.entries.keys.idxOf k

/-- What the store has for a key is what the vault's entry carries: the value,
the guard, the owner, and from the reading `t` on the active claim. -/
structure ExactlyAs (store : Store) (k : String) (e : VaultEntry) (t : UInt64) : Prop where
  value : (store.entries[k]?).bind CacheEntry.value = some e.secret
  guard : store.guardOf k = restoredGuard e
  owner : store.ownerOf k = restoredOwner e
  claim : ∀ u, t ≤ u → activeClaimOf store k u = restoredClaim e u

/-- Nothing is attached to the key in the store where the vault's entry attaches
nothing. -/
structure NoLeftover (store : Store) (k : String) (e : VaultEntry) (t : UInt64) : Prop where
  guard : e.guard = none → store.guardOf k = none
  owner : e.owner = none → store.ownerOf k = none
  claim : e.activeClaim t = none → activeClaimOf store k t = none

theorem slotValue_eq_none {α : Type} {slot : Option (JsonSlot α)}
    (h : ∀ text, slot ≠ some (.foreign text)) : slotValue slot = none ↔ slot = none := by
  rcases slot with _ | ⟨a⟩ | ⟨text⟩
  · simp [slotValue]
  · simp [slotValue]
  · exact absurd rfl (h text)

theorem or_eq_left_iff {α : Type} {a b : Option α} : a.or b = a ↔ (a = none → b = none) := by
  cases a <;> simp

/-- A claim that is not active at a reading is not at a later one. -/
theorem filter_active_of_le {claim : Option RefreshClaim} {t u : UInt64}
    (h : claim.filter (·.isActiveAt t) = none) (htu : t ≤ u) :
    claim.filter (·.isActiveAt u) = none := by
  cases claim with
  | none => rfl
  | some c =>
    simp only [Option.filter, RefreshClaim.isActiveAt, decide_eq_true_eq] at h ⊢
    have ht : ¬ t < c.expiresAtEpochMs := by
      intro hlt
      simp [hlt] at h
    have hu : ¬ u < c.expiresAtEpochMs := fun hlt => ht (UInt64.lt_of_le_of_lt htu hlt)
    simp [hu]

theorem restoredClaim_of_le {e : VaultEntry} {t u : UInt64} (h : e.activeClaim t = none)
    (htu : t ≤ u) : restoredClaim e u = none := by
  have hu : e.activeClaim u = none := by
    cases hc : e.refreshClaim with
    | none => simp [VaultEntry.activeClaim, hc]
    | some c =>
      have ht : c.isActiveAt t = false := by
        simpa [VaultEntry.activeClaim, hc, Option.filter] using h
      simp [VaultEntry.activeClaim, hc, Option.filter, Claim.not_active_of_le ht htu]
  simp [restoredClaim, hu]

/-- An entry that is restored has in the store exactly what the vault attaches to
it if and only if nothing was attached to its name there before in the place of
something the vault's entry lacks. -/
theorem restored_exactly_iff {k : String} {e : VaultEntry} (he : vault.entry k = some e)
    (hr : Restorable e) :
    ExactlyAs (installVaultEntries store store.controlCap clock wall vault).2 k e
        (wall (installedAt vault k)) ↔
      NoLeftover store k e (wall (installedAt vault k)) := by
  have hslice := installVaultEntries_slice clock wall vault store.checkCap_controlCap k
  unfold installedSlice at hslice
  rw [he] at hslice
  simp only [hr, if_true] at hslice
  generalize (installVaultEntries store store.controlCap clock wall vault).2 = after at hslice ⊢
  change after.slice k = restoredSlice _ _ (clock.now (installedAt vault k))
    (wall (installedAt vault k)) at hslice
  generalize wall (installedAt vault k) = t at hslice ⊢
  have hentry := congrArg KeySlice.entry hslice
  have hguard : after.guardOf k = (restoredGuard e).or (store.guardOf k) :=
    congrArg KeySlice.guard hslice
  have howner : after.ownerOf k = (restoredOwner e).or (store.ownerOf k) :=
    congrArg KeySlice.owner hslice
  have hclaim : after.refreshClaimOf k = (restoredClaim e t).or (store.refreshClaimOf k) :=
    congrArg KeySlice.claim hslice
  have hvalue : (after.entries[k]?).bind CacheEntry.value = some e.secret := by
    rw [show after.entries[k]? = some (CacheEntry.new .static e.secret (restoredTtl e)
      (clock.now (installedAt vault k))) from hentry]
    rfl
  have hguardNone : restoredGuard e = none ↔ e.guard = none := by
    rw [restoredGuard, Option.map_eq_none_iff, slotValue_eq_none hr.guard]
  have hownerNone : restoredOwner e = none ↔ e.owner = none := slotValue_eq_none hr.owner
  -- At `t` the vault's claim is in the store as it is, or it is not active.
  have hclaimAt : (∀ u, t ≤ u → activeClaimOf after k u = restoredClaim e u) ↔
      (e.activeClaim t = none → activeClaimOf store k t = none) := by
    cases hc : e.activeClaim t with
    | none =>
      have hnone : restoredClaim e t = none := by simp [restoredClaim, hc]
      have hsame : ∀ u, activeClaimOf after k u = activeClaimOf store k u := by
        intro u
        rw [activeClaimOf, hclaim, hnone]
        rfl
      simp only [forall_const, hsame]
      constructor
      · intro h
        rw [h t (UInt64.le_refl t), hnone]
      · intro h u htu
        rw [restoredClaim_of_le hc htu]
        exact filter_active_of_le h htu
    | some c =>
      simp only [reduceCtorEq, false_implies, iff_true]
      intro u htu
      obtain ⟨hmem, -⟩ := Option.filter_eq_some_iff.mp hc
      have hstored : after.refreshClaimOf k =
          some ⟨c.token.asStr, c.claimedAtEpochMs, c.expiresAtEpochMs⟩ := by
        rw [hclaim]
        simp [restoredClaim, hc]
      rw [activeClaimOf, hstored]
      simp only [restoredClaim, VaultEntry.activeClaim, hmem]
      by_cases hu : u < c.expiresAtEpochMs <;>
        simp [Option.filter, RefreshClaim.isActiveAt, Claim.isActiveAt, hu]
  constructor
  · rintro ⟨-, hg, ho, hcl⟩
    refine ⟨fun h => ?_, fun h => ?_, hclaimAt.mp hcl⟩
    · rw [hguard, or_eq_left_iff] at hg
      exact hg (hguardNone.mpr h)
    · rw [howner, or_eq_left_iff] at ho
      exact ho (hownerNone.mpr h)
  · rintro ⟨hg, ho, hcl⟩
    refine ⟨hvalue, ?_, ?_, hclaimAt.mpr hcl⟩
    · rw [hguard, or_eq_left_iff, hguardNone]
      exact hg
    · rw [howner, or_eq_left_iff, hownerNone]
      exact ho

def plainEntry : VaultEntry := VaultEntry.new "ns/k" [1] 0

def plainKept : UnlockedVault := Bench.plainVault.insertEntry plainEntry

def plainStore : Store := Store.newWithToken 0 Duration.zero

theorem plainKept_entry : plainKept.entry "ns/k" = some plainEntry := by
  simp [plainKept, UnlockedVault.entry_insertEntry, plainEntry, VaultEntry.new]

/-- An entry with a guard, an owner and a claim that runs for an hour. -/
def heldEntry : VaultEntry :=
  { VaultEntry.new "ns/held" [2] 100 with
    guard := some (.value ⟨[.sameUser, .command "deploy"], 501, 501⟩)
    owner := some (.value ⟨.appleGeneric, "ABCDE12345", "com.example.tool"⟩)
    refreshClaim := some ⟨⟨"AAAAAAAAAAAAAAAAAAAAAA"⟩, 100, 3600100⟩ }

def bothKept : UnlockedVault := plainKept.insertEntry heldEntry

theorem bothKept_entry : bothKept.entry "ns/held" = some heldEntry := by
  rw [bothKept, UnlockedVault.entry_insertEntry]
  exact if_pos rfl

/-- Another value under the name, guarded, owned and claimed by others, and a
value beside it. -/
def occupiedStore : Store :=
  let beside := (plainStore.set "ns/k" .static [9] Ttl.never plainStore.controlCap
    Monotonic.zero).2
  let other := (beside.set "ns/held" .static [7] Ttl.never beside.controlCap Monotonic.zero).2
  let guarded := (other.setGuard "ns/held" ⟨[.sameUser], ⟨502, 502⟩⟩ other.controlCap).2
  let owned := (guarded.setOwner "ns/held" ⟨.apple, "ZZZZZ99999", "com.example.other"⟩
    guarded.controlCap).2
  (owned.setRefreshClaim "ns/held" ⟨"BBBBBBBBBBBBBBBBBBBBBB", 0, 7200000⟩ owned.controlCap).2

def occupiedAfter : Store :=
  (installVaultEntries occupiedStore occupiedStore.controlCap (Clock.constant Monotonic.zero)
    (fun _ => 200) bothKept).2

theorem restored_exactly_iff_held :
    ExactlyAs occupiedAfter "ns/held" heldEntry 200 ∧
      occupiedAfter.guardOf "ns/held" = some ⟨[.sameUser, .command "deploy"], ⟨501, 501⟩⟩ ∧
      occupiedAfter.ownerOf "ns/held" =
        some ⟨.appleGeneric, "ABCDE12345", "com.example.tool"⟩ ∧
      activeClaimOf occupiedAfter "ns/held" 3600099 =
        some ⟨"AAAAAAAAAAAAAAAAAAAAAA", 100, 3600100⟩ := by
  have hexactly : ExactlyAs occupiedAfter "ns/held" heldEntry 200 :=
    (restored_exactly_iff occupiedStore (Clock.constant Monotonic.zero) (fun _ => 200) bothKept
      bothKept_entry (by decide)).mpr
      ⟨fun h => (by cases h), fun h => (by cases h), fun h => absurd h (by decide)⟩
  exact ⟨hexactly, hexactly.guard, hexactly.owner, hexactly.claim 3600099 (by decide)⟩

/-- The store after a guarded set made while the vault was closed. -/
def plainGuarded : Store :=
  (plainStore.setGuard "ns/k" ⟨[.sameUser], ⟨501, 501⟩⟩ plainStore.controlCap).2

/-- The guard of that other value is in force for the one the vault restores. -/
theorem leftover_guard_governs :
    plainKept.entry "ns/k" = some plainEntry ∧ Restorable plainEntry ∧
      ¬ ExactlyAs (installVaultEntries plainGuarded plainGuarded.controlCap
        (Clock.constant Monotonic.zero) (fun _ => 0) plainKept).2 "ns/k" plainEntry 0 := by
  refine ⟨plainKept_entry, by decide, ?_⟩
  intro h
  have hguard : (installVaultEntries plainGuarded plainGuarded.controlCap
      (Clock.constant Monotonic.zero) (fun _ => 0) plainKept).2.guardOf "ns/k" =
    some ⟨[.sameUser], ⟨501, 501⟩⟩ := by decide
  have hnone := h.guard
  rw [hguard] at hnone
  cases hnone

end Exactly

end Daemon

end CacheWarden
