import CacheWarden.Daemon.Restore
import CacheWarden.Vault.UnlockedSpec

/-!
# What one request can do

`Effect` sums up the request handlers: a request that does anything does one of
the things listed, with the store, the vault and the file it leaves. The
theorems about runs are case analyses over it.
-/

set_option autoImplicit false

namespace CacheWarden

namespace Daemon

open Vault Store

/-- The store after a set that is accepted. -/
def acceptedStore (store : Store) (key : String) (bytes : Bytes) (ttl : Ttl)
    (plan : Option GuardRecord) (declared : Option OwnerPrincipal) (now : Monotonic) : Store :=
  { store with
    entries := store.entries.insert key (CacheEntry.new .static bytes ttl now)
    accessGuards :=
      match plan with
      | some record => store.accessGuards.insert key record
      | none => store.accessGuards.erase key
    owners := KeyMap.insertOpt store.owners key declared
    versions := store.versions.insert key (Word64.saturatingAdd (store.versionOf key) 1)
    refreshClaims := store.refreshClaims.erase key }

def planLabels (plan : Option GuardRecord) : List String :=
  match plan with
  | some record => record.constraints.map constraintKindLabel
  | none => []

/-- What a set asks for, once it is found well formed. -/
structure SetPlan where
  bytes : Bytes
  ttl : Ttl
  guard : Option GuardRecord
  declared : Option OwnerPrincipal

/-- A set past its gates whose parts are all well formed. -/
structure Accepts (ctx : HandlerCtx) (s : State) (r : SetRequest) (plan : SetPlan)
    (persist : Bool) : Prop where
  gate : gateSet ctx s r = .ok (plan.declared, persist)
  source : r.source = .static (some plan.bytes)
  valid : ValidKey r.key
  soft : plan.ttl.soft = r.softTtlSecs.map Duration.fromSecs
  hard : plan.ttl.hard = (if persist then none else r.hardTtlSecs).map Duration.fromSecs
  guard : planGuardRecord r.guardConstraints ctx.kvPolicy ctx.guardAuditToken ctx.guardChain =
    .ok plan.guard

def SetPlan.store (plan : SetPlan) (ctx : HandlerCtx) (s : State) (key : String) : Store :=
  acceptedStore s.store key plan.bytes plan.ttl plan.guard plan.declared (ctx.clock.now 0)

/-- The entry a persisted set hands to the vault. -/
def entryFor (ctx : HandlerCtx) (store : Store) (key : String) (bytes : Bytes) : VaultEntry :=
  { VaultEntry.new key bytes (ctx.wall 1) with
    casVersion := store.versionOf key
    guard := (store.guardOf key).map fun record => .value (guardRecordToSnapshot record)
    owner := (store.ownerOf key).map .value }

section Slices

/-- One key's slice was replaced by one that agrees with it in a field. -/
theorem slice_field {α : Type} (f : KeySlice → α) {store store' : Store} {key k : String}
    {slice : KeySlice} (h : store'.slice k = if key = k then slice else store.slice k)
    (hf : f slice = f (store.slice k)) : f (store'.slice k) = f (store.slice k) := by
  rw [h]
  by_cases hk : key = k
  · rw [if_pos hk, hf]
  · rw [if_neg hk]

variable (store : Store) (key a : String) (cap : Capability)

theorem acceptedStore_slice (bytes : Bytes) (ttl : Ttl) (plan : Option GuardRecord)
    (declared : Option OwnerPrincipal) (now : Monotonic) :
    (acceptedStore store key bytes ttl plan declared now).slice a =
      if key = a then
        { store.slice a with
          entry := some (CacheEntry.new .static bytes ttl now)
          guard := plan
          owner := declared.or (store.ownerOf a)
          version := some (Word64.saturatingAdd (store.versionOf a) 1)
          claim := none }
      else store.slice a := by
  by_cases hk : key = a
  · subst hk
    cases plan <;> simp [acceptedStore, slice, KeyMap.get_insertOpt, ownerOf]
  · cases plan <;> simp [acceptedStore, slice, KeyMap.get_insertOpt, KeyMap.get_insert,
      KeyMap.get_erase, hk]

/-- What the removal of a value alone leaves of a key. -/
def KeySlice.valueless (slice : KeySlice) : KeySlice :=
  { slice with entry := none, guard := none, claim := none }

theorem delete_slice (hcap : store.checkCap cap = .ok ()) :
    (store.delete key cap).2.slice a =
      if key = a then KeySlice.valueless (store.slice a) else store.slice a := by
  unfold delete
  rw [hcap]
  by_cases hk : key = a
  · subst hk
    simp [slice, KeySlice.valueless]
  · simp [slice, KeyMap.get_erase, hk]

theorem deleteWithDefinition_slice (hcap : store.checkCap cap = .ok ()) :
    (store.deleteWithDefinition key cap).2.slice a =
      if key = a then KeySlice.empty else store.slice a := by
  unfold deleteWithDefinition
  rw [hcap]
  by_cases hk : key = a
  · subst hk
    simp [slice, KeySlice.empty]
  · simp [slice, KeyMap.get_erase, hk]

theorem delete_checkCap (hcap : store.checkCap cap = .ok ()) :
    (store.delete key cap).2.checkCap cap = .ok () := by
  unfold delete
  rw [hcap]
  exact hcap

theorem deleteAll_slice (keys : List String) (hcap : store.checkCap cap = .ok ()) :
    (deleteAll cap keys store).slice a =
      if a ∈ keys then KeySlice.valueless (store.slice a) else store.slice a := by
  induction keys generalizing store with
  | nil => rfl
  | cons key keys ih =>
    show (deleteAll cap keys (store.delete key cap).2).slice a = _
    rw [ih _ (delete_checkCap store key cap hcap), delete_slice store key a cap hcap]
    by_cases hk : key = a
    · subst hk
      by_cases hmem : key ∈ keys <;> simp [KeySlice.valueless, hmem]
    · simp [hk, Ne.symm hk]

theorem setRefreshClaim_slice (claim : RefreshClaim) (hcap : store.checkCap cap = .ok ()) :
    (store.setRefreshClaim key claim cap).2.slice a =
      if key = a then { store.slice a with claim := some claim } else store.slice a := by
  unfold setRefreshClaim
  rw [hcap]
  by_cases hk : key = a
  · subst hk
    simp [slice]
  · simp [slice, KeyMap.get_insert, hk]

theorem clearRefreshClaim_slice (hcap : store.checkCap cap = .ok ()) :
    (store.clearRefreshClaim key cap).2.slice a =
      if key = a then { store.slice a with claim := none } else store.slice a := by
  unfold clearRefreshClaim
  rw [hcap]
  by_cases hk : key = a
  · subst hk
    simp [slice]
  · simp [slice, KeyMap.get_erase, hk]

theorem clearOwner_slice (hcap : store.checkCap cap = .ok ()) :
    (store.clearOwner key cap).2.slice a =
      if key = a then { store.slice a with owner := none } else store.slice a := by
  unfold clearOwner
  rw [hcap]
  by_cases hk : key = a
  · subst hk
    simp [slice]
  · simp [slice, KeyMap.get_erase, hk]

/-- A definition touches nothing but the definitions, and none there is. -/
theorem defineWithMeta_eq (source : ValueSource) (ttl : Ttl) (valueMeta : ValueMeta)
    (sourceMeta : SourceMeta) :
    ∃ definitions : KeyMap Definition,
      (store.defineWithMeta key source ttl valueMeta sourceMeta).2 =
        { store with definitions := definitions } ∧
      ∀ (a : String) d, store.definitions[a]? = some d → definitions[a]? = some d := by
  rcases store.defineWithMeta_cases key source ttl valueMeta sourceMeta with
    ⟨⟨e, heq⟩, -⟩ | ⟨-, d, -, ⟨-, heq⟩ | ⟨hnone, heq⟩⟩
  · rw [heq]
    exact ⟨_, rfl, fun _ _ h => h⟩
  · rw [heq]
    exact ⟨_, rfl, fun _ _ h => h⟩
  · rw [heq]
    refine ⟨_, rfl, fun a d h => ?_⟩
    rw [KeyMap.get_insert_of_ne]
    · exact h
    · intro hk
      subst hk
      rw [hnone] at h
      cases h

end Slices

/-- The claim the store records for a caller. -/
def claimFor (ctx : HandlerCtx) (durationSecs : UInt64) : RefreshClaim :=
  ⟨ctx.freshToken.asStr, ctx.wall 0,
    Word64.saturatingAdd (ctx.wall 0) (Word64.saturatingMul durationSecs 1000)⟩

/-- The vault's entry with the claim it records for a caller. -/
def claimedEntry (ctx : HandlerCtx) (e : VaultEntry) (durationSecs : UInt64) : VaultEntry :=
  { e with
    refreshClaim := some
      (UnlockedVault.grantedClaim ctx.freshToken (ctx.wall 1) (Duration.fromSecs durationSecs)) }

/-- The vault after a value has been written through to it from the store. -/
def writtenVault (ctx : HandlerCtx) (vault : UnlockedVault) (store : Store) (key : String)
    (bytes : Bytes) : UnlockedVault :=
  vault.insertEntry (UnlockedVault.written (entryFor ctx store key bytes)
    (Word64.saturatingAdd (vault.casOf key) 1) (ctx.wall 3))

/-- The file after a commit of `next`, whether or not it was reported done. -/
def Spilled (ctx : HandlerCtx) (s : State) (next : UnlockedVault) (file : Stored) : Prop :=
  file = (Stored.commitTo ctx.commit next s.file).2

theorem Spilled.cases {ctx : HandlerCtx} {s : State} {next : UnlockedVault} {file : Stored}
    (h : Spilled ctx s next file) : file = s.file ∨ file = .holds next := by
  unfold Spilled at h
  rw [h]
  rcases ctx.commit with _ | ⟨e, landed⟩
  · exact Or.inr rfl
  · cases landed with
    | true => exact Or.inr rfl
    | false => exact Or.inl rfl

/-- No open vault has an entry for the key. -/
def NotHeld (s : State) (key : String) : Prop :=
  ∀ vault, s.openVault = some vault → vault.entry key = none

/-- Nothing stops a claim on an entry of the open vault. -/
structure ClaimGranted (ctx : HandlerCtx) (s : State) (key : String) (expected secs : UInt64)
    (e : VaultEntry) : Prop where
  owner : requireOwner ctx s key = none
  value : s.store.hasValue key = true
  range : secs ≠ 0 ∧ ¬ maxClaimSecs < secs
  version : s.store.versionOf key = expected
  idle : activeClaimOf s.store key (ctx.wall 0) = none
  cas : e.casVersion = expected
  free : e.activeClaim (ctx.wall 1) = none
  commit : ctx.commit = .done

/-- What the request does, with its reply and the state it leaves. -/
inductive Effect (ctx : HandlerCtx) (s : State) : Request → Response → State → Prop
  | refused (req : Request) (e : WireError) : Effect ctx s req (.err e) s
  | pong : Effect ctx s .ping (.ok .pong) s
  | stayedClosed (h : s.openVault = none) : Effect ctx s .vaultLock (.ok .vaultLocked) s
  | cached (r : SetRequest) (plan : SetPlan) (owner : Option String)
      (h : Accepts ctx s r plan false) :
      Effect ctx s (.kvSet r)
        (.ok (.set (planLabels plan.guard)
          (some (Word64.saturatingAdd (s.store.versionOf r.key) 1)) owner))
        (s.withStore (plan.store ctx s r.key))
  | persisted (r : SetRequest) (plan : SetPlan) (owner : Option String) (vault : UnlockedVault)
      (h : Accepts ctx s r plan true) (hvault : s.vault = some (.unlocked vault))
      (hallowed : vault.WriteAllowed r.key (r.claimToken.bind ClaimToken.parse) (ctx.wall 2)) :
      Effect ctx s (.kvSet r)
        (.ok (.set (planLabels plan.guard)
          (some (Word64.saturatingAdd (s.store.versionOf r.key) 1)) owner))
        ((s.withStore (plan.store ctx s r.key)).withVault
          (writtenVault ctx vault (plan.store ctx s r.key) r.key plan.bytes)
          (.holds (writtenVault ctx vault (plan.store ctx s r.key) r.key plan.bytes)))
  | unwritable (r : SetRequest) (plan : SetPlan) (err : WireError) (h : Accepts ctx s r plan true)
      (he : ∀ e, persistedEntry ctx (plan.store ctx s r.key) r.key plan.bytes ≠ .ok e) :
      Effect ctx s (.kvSet r) (.err err) (s.withStore (plan.store ctx s r.key))
  | fenced (r : SetRequest) (plan : SetPlan) (err : WireError) (vault : UnlockedVault)
      (existing : VaultEntry) (cause : VaultError) (h : Accepts ctx s r plan true)
      (hvault : s.vault = some (.unlocked vault)) (hheld : vault.entry r.key = some existing)
      (hcheck : checkClaim existing (r.claimToken.bind ClaimToken.parse) (ctx.wall 2) =
        .error cause) :
      Effect ctx s (.kvSet r) (.err err) (s.withStore (plan.store ctx s r.key))
  | uncommitted (r : SetRequest) (plan : SetPlan) (err : WireError) (vault : UnlockedVault)
      (file : Stored) (h : Accepts ctx s r plan true) (hvault : s.vault = some (.unlocked vault))
      (hcommit : ctx.commit ≠ .done)
      (hfile : Spilled ctx s (writtenVault ctx vault (plan.store ctx s r.key) r.key plan.bytes) file) :
      Effect ctx s (.kvSet r) (.err err)
        { s with store := plan.store ctx s r.key, file := file }
  | created (vault : UnlockedVault) (code : Key) (hempty : vault.entries = ∅)
      (hfile : s.file = .absent) (hstate : s.vault = some .notInitialized) :
      Effect ctx s .vaultInit (.ok (.vaultInitialized vault.vaultId code))
        { s with vault := some (.unlocked vault), file := .holds vault }
  | uncreated (e : WireError) (file : Stored) (hstate : s.vault = some .notInitialized)
      (hfile : s.file = .absent ∧ ∀ v, file = .holds v → v.entries = ∅) :
      Effect ctx s .vaultInit (.err e) { s with file := file }
  | opened (code : Key) (vault : UnlockedVault)
      (hvault : s.vault = some (.unlocked vault) ∨ s.vault = some .locked ∧ s.file = .holds vault) :
      Effect ctx s (.vaultUnlock (some (some code)))
        (.ok (.vaultUnlocked
          (installVaultEntries s.store s.store.controlCap ctx.clock ctx.wall vault).1))
        { s with
          vault := some (.unlocked vault)
          store := (installVaultEntries s.store s.store.controlCap ctx.clock ctx.wall vault).2 }
  | closed (vault : UnlockedVault) (state : VaultState) (hvault : s.vault = some (.unlocked vault))
      (hstate : state = .locked ∧ (∃ v, s.file = .holds v) ∨
        state = .notInitialized ∧ s.file = .absent) :
      Effect ctx s .vaultLock (.ok .vaultLocked)
        { s with
          vault := some state
          store := deleteAll s.store.controlCap vault.entries.keys s.store }
  | deleted (key : String) (withDefine removed : Bool)
      (h : vaultOwnership ctx s key = .unrelated) (hgate : requireOwner ctx s key = none) :
      Effect ctx s (.kvDel key withDefine) (.ok (.deleted removed))
        (s.withStore
          (if withDefine then (s.store.deleteWithDefinition key s.store.controlCap).2
            else (s.store.delete key s.store.controlCap).2))
  | deletedHeld (key : String) (withDefine : Bool) (vault : UnlockedVault)
      (hvault : s.vault = some (.unlocked vault)) (hheld : (vault.entry key).isSome) :
      Effect ctx s (.kvDel key withDefine) (.ok (.deleted true))
        ((s.withVault (vault.eraseEntry key) (.holds (vault.eraseEntry key))).withStore
          (s.store.deleteWithDefinition key s.store.controlCap).2)
  | undeleted (key : String) (withDefine : Bool) (e : WireError) (vault : UnlockedVault)
      (file : Stored) (hvault : s.vault = some (.unlocked vault)) (hheld : (vault.entry key).isSome)
      (hcommit : ctx.commit ≠ .done) (hfile : Spilled ctx s (vault.eraseEntry key) file) :
      Effect ctx s (.kvDel key withDefine) (.err e) { s with file := file }
  | claimed (key : String) (expected secs : UInt64) (hheld : NotHeld s key)
      (hversion : s.store.versionOf key = expected)
      (hidle : activeClaimOf s.store key (ctx.wall 0) = none) :
      Effect ctx s (.kvClaim key expected secs) (.ok (.claimed expected ctx.freshToken.asStr secs))
        (s.withStore (s.store.setRefreshClaim key (claimFor ctx secs) s.store.controlCap).2)
  | claimedHeld (key : String) (expected secs : UInt64) (vault : UnlockedVault) (e : VaultEntry)
      (hvault : s.vault = some (.unlocked vault)) (hheld : vault.entry key = some e)
      (hgranted : ClaimGranted ctx s key expected secs e) :
      Effect ctx s (.kvClaim key expected secs) (.ok (.claimed expected ctx.freshToken.asStr secs))
        ((s.withVault (vault.insertEntry (claimedEntry ctx e secs))
          (.holds (vault.insertEntry (claimedEntry ctx e secs)))).withStore
            (s.store.setRefreshClaim key (claimFor ctx secs) s.store.controlCap).2)
  | unclaimed (key : String) (expected secs : UInt64) (err : WireError) (vault : UnlockedVault)
      (e : VaultEntry) (file : Stored) (hvault : s.vault = some (.unlocked vault))
      (hheld : vault.entry key = some e) (hcommit : ctx.commit ≠ .done)
      (hfile : Spilled ctx s (vault.insertEntry (claimedEntry ctx e secs)) file) :
      Effect ctx s (.kvClaim key expected secs) (.err err) { s with file := file }
  | released (key token : String) (hheld : NotHeld s key)
      (hfence : ∀ c ∈ activeClaimOf s.store key (ctx.wall 0), claimTokenMatches c.token token) :
      Effect ctx s (.kvUnclaim key token) (.ok .unclaimed)
        (s.withStore (s.store.clearRefreshClaim key s.store.controlCap).2)
  | releasedHeld (key token : String) (vault next : UnlockedVault) (e : VaultEntry) (file : Stored)
      (hvault : s.vault = some (.unlocked vault)) (hheld : vault.entry key = some e)
      (hfence : ∀ c ∈ activeClaimOf s.store key (ctx.wall 0), claimTokenMatches c.token token)
      (hnext : e.refreshClaim = none ∧ next = vault ∧ file = s.file ∨
        next = vault.insertEntry { e with refreshClaim := none } ∧ file = .holds next) :
      Effect ctx s (.kvUnclaim key token) (.ok .unclaimed)
        ((s.withVault next file).withStore
          (s.store.clearRefreshClaim key s.store.controlCap).2)
  | unreleased (key token : String) (err : WireError) (vault : UnlockedVault) (e : VaultEntry)
      (file : Stored) (hvault : s.vault = some (.unlocked vault))
      (hheld : vault.entry key = some e) (hcommit : ctx.commit ≠ .done)
      (hfile : Spilled ctx s (vault.insertEntry { e with refreshClaim := none }) file) :
      Effect ctx s (.kvUnclaim key token) (.err err) { s with file := file }
  | defined (key : String) (source : SourceSpecWire) (soft hard : Option UInt64)
      (valueMeta : ValueMetaWire) (ttl : Ttl)
      (h : (s.store.defineWithMeta key source.lower ttl (metaFromWire valueMeta)
        source.toSourceMeta).1 = .ok ()) :
      Effect ctx s (.kvDefine key source soft hard valueMeta) (.ok .defined)
        (s.withStore (s.store.defineWithMeta key source.lower ttl (metaFromWire valueMeta)
          source.toSourceMeta).2)
  | read (key : String) (dryRun : Bool) (resp : Response) (store : Store)
      (calls : List ExternalCall)
      (hreads : Reads ctx.runner key (ctx.clock.now 0) ctx.clock.last s.store store)
      (hvalue : ∀ v, resp = .ok (.get v) → ∃ seed,
        (store.entries[key]?).bind CacheEntry.value = some seed ∧
          if metaIsOtp (metaOf store key) then ctx.deriveCode seed (metaOf store key) = .ok v
          else v = seed)
      (horigin : Origin ctx.runner calls key s.store store) :
      Effect ctx s (.kvGet key dryRun) resp { s with store := store, log := s.log ++ calls }
  | pinned (key : String) (secs : UInt64) (resp : Response) (store : Store)
      (log : List ExternalCall)
      (hreads : Reads ctx.runner key (ctx.clock.now 0) ctx.clock.last s.store store)
      (horigin : Origin ctx.runner [] key s.store store) :
      Effect ctx s (.kvPin key secs) resp { s with store := store, log := log }
  | unpinned (key : String) (resp : Response) (store : Store)
      (hreads : Reads ctx.runner key (ctx.clock.now 0) ctx.clock.last s.store store)
      (horigin : Origin ctx.runner [] key s.store store) :
      Effect ctx s (.kvUnpin key) resp (s.withStore store)
  | ownerCleared (key : String) (hgate : requireOwner ctx s key = none)
      (howner : (s.store.ownerOf key).isSome) :
      Effect ctx s (.kvOwnerClear key) (.ok .ownerCleared)
        (s.withStore (s.store.clearOwner key s.store.controlCap).2)

end Daemon

end CacheWarden
