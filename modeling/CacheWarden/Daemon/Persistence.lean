import CacheWarden.Daemon.Handling

/-!
# A persisted value through a lock and an unlock

The write-through and the installer are two mappings written by hand. What they
keep of a value that is set, and what they lose, is said here once for a set
that is acknowledged.
-/

set_option autoImplicit false

namespace CacheWarden

namespace Daemon

open Vault Store

/-- The key has in both stores the same value, guard, owner and soft TTL. -/
structure SameCredential (k : String) (before after : Store) : Prop where
  value : (after.entries[k]?).bind CacheEntry.value = (before.entries[k]?).bind CacheEntry.value
  guard : after.guardOf k = before.guardOf k
  owner : after.ownerOf k = before.ownerOf k
  soft : (after.entries[k]?).bind (·.ttl.soft) = (before.entries[k]?).bind (·.ttl.soft)

section Persist

variable {ctx : HandlerCtx} {s : State} {r : SetRequest}

/-- The entry a write-through leaves in the vault. -/
theorem writtenVault_entry (vault : UnlockedVault) (store : Store) (key a : String)
    (bytes : Bytes) :
    (writtenVault ctx vault store key bytes).entry a =
      if key = a then
        some (UnlockedVault.written (entryFor ctx store key bytes)
          (Word64.saturatingAdd (vault.casOf key) 1) (ctx.wall 3))
      else vault.entry a :=
  vault.entry_insertEntry _ a

theorem restorable_entryFor (store : Store) {key : String} (bytes : Bytes) (version now : UInt64)
    (h : ValidKey key) :
    Restorable (UnlockedVault.written (entryFor ctx store key bytes) version now) where
  valid := h
  guard text hg := by
    cases hrecord : store.guardOf key <;>
      simp [UnlockedVault.written, entryFor, hrecord] at hg
  owner text ho := by
    cases howner : store.ownerOf key <;>
      simp [UnlockedVault.written, entryFor, howner] at ho

theorem restoredGuard_entryFor (store : Store) (key : String) (bytes : Bytes)
    (version now : UInt64) :
    restoredGuard (UnlockedVault.written (entryFor ctx store key bytes) version now) =
      (store.guardOf key).map fun record =>
        snapshotToGuardRecord (guardRecordToSnapshot record) := by
  unfold restoredGuard UnlockedVault.written entryFor
  cases store.guardOf key <;> rfl

theorem restoredOwner_entryFor (store : Store) (key : String) (bytes : Bytes)
    (version now : UInt64) :
    restoredOwner (UnlockedVault.written (entryFor ctx store key bytes) version now) =
      store.ownerOf key := by
  unfold restoredOwner UnlockedVault.written entryFor
  cases store.ownerOf key <;> rfl

end Persist

/-- The guard a set declares, the start times of its processes in whole
microseconds. -/
def GuardKept (ctx : HandlerCtx) (r : SetRequest) : Prop :=
  ∀ record, planGuardRecord r.guardConstraints ctx.kvPolicy ctx.guardAuditToken ctx.guardChain =
    .ok (some record) → record.WholeMicros

section RoundTrip

variable {ctx lockCtx unlockCtx : HandlerCtx} {s s₁ s₂ s₃ : State} {r : SetRequest}

/-- A persisted set that is acknowledged is in the open vault and in its file. -/
theorem persisted_of_ack {payload : OkPayload}
    (hpersist : (r.persist.getD false || decide (r.key ∈ ctx.persistedKeys)) = true)
    (hset : handleRequest ctx s (.kvSet r) = (.ok payload, s₁)) :
    ∃ plan vault, Accepts ctx s r plan true ∧
      s₁ = (s.withStore (plan.store ctx s r.key)).withVault
        (writtenVault ctx vault (plan.store ctx s r.key) r.key plan.bytes)
        (.holds (writtenVault ctx vault (plan.store ctx s r.key) r.key plan.bytes)) := by
  have heffect := handleRequest_effect ctx s (.kvSet r)
  rw [hset] at heffect
  cases heffect with
  | cached _ plan owner h =>
    have hfalse := (gated_of_gateSet ctx s h.gate).chosen
    rw [hpersist] at hfalse
    cases hfalse
  | persisted _ plan owner vault h hvault hallowed => exact ⟨plan, vault, h, rfl⟩

/-- Closing the vault drops the values it holds, and opening it installs what
its file has. -/
theorem lock_unlock {vault stored : UnlockedVault} {code : Key} {n : ℕ}
    (hvault : s₁.vault = some (.unlocked vault)) (hfile : s₁.file = .holds stored)
    (hlock : handleRequest lockCtx s₁ .vaultLock = (.ok .vaultLocked, s₂))
    (hunlock : handleRequest unlockCtx s₂ (.vaultUnlock (some (some code))) =
      (.ok (.vaultUnlocked n), s₃)) :
    s₃.store = (installVaultEntries (deleteAll s₁.store.controlCap vault.entries.keys s₁.store)
      (deleteAll s₁.store.controlCap vault.entries.keys s₁.store).controlCap unlockCtx.clock
        unlockCtx.wall stored).2 := by
  have hclosed := handleRequest_effect lockCtx s₁ .vaultLock
  rw [hlock] at hclosed
  have hopened := handleRequest_effect unlockCtx s₂ (.vaultUnlock (some (some code)))
  rw [hunlock] at hopened
  cases hclosed with
  | stayedClosed h =>
    have hopen := openVault_of_unlocked _ hvault
    rw [h] at hopen
    cases hopen
  | closed vault' state hvault' hstate =>
    rw [hvault] at hvault'
    cases hvault'
    rcases hstate with ⟨rfl, -⟩ | ⟨-, habsent⟩
    · cases hopened with
      | opened _ vault' hopen =>
        rcases hopen with hopen | ⟨-, hheld⟩
        · cases hopen
        · have hsame : Stored.holds stored = .holds vault' := hfile.symm.trans hheld
          cases hsame
          rfl
    · rw [hfile] at habsent
      cases habsent

/-- A persisted set that is acknowledged comes back from a lock and an unlock
with the same value, guard, owner and soft TTL if and only if it had no soft TTL
and no start time in its guard is narrowed. -/
theorem persisted_survives_iff (ctx lockCtx unlockCtx : HandlerCtx) (s s₁ s₂ s₃ : State)
    (r : SetRequest) (payload : OkPayload) (code : Key) (n : ℕ)
    (hpersist : (r.persist.getD false || decide (r.key ∈ ctx.persistedKeys)) = true)
    (hset : handleRequest ctx s (.kvSet r) = (.ok payload, s₁))
    (hlock : handleRequest lockCtx s₁ .vaultLock = (.ok .vaultLocked, s₂))
    (hunlock : handleRequest unlockCtx s₂ (.vaultUnlock (some (some code))) =
      (.ok (.vaultUnlocked n), s₃)) :
    SameCredential r.key s₁.store s₃.store ↔ r.softTtlSecs = none ∧ GuardKept ctx r := by
  obtain ⟨plan, vault, haccepts, rfl⟩ := persisted_of_ack hpersist hset
  generalize hnext : writtenVault ctx vault (plan.store ctx s r.key) r.key plan.bytes = next at *
  have hopen : ((s.withStore (plan.store ctx s r.key)).withVault next (.holds next)).vault =
    some (.unlocked next) := rfl
  have hafter := lock_unlock hopen rfl hlock hunlock
  have hentry : next.entry r.key = some (UnlockedVault.written
      (entryFor ctx (plan.store ctx s r.key) r.key plan.bytes)
      (Word64.saturatingAdd (vault.casOf r.key) 1) (ctx.wall 3)) := by
    rw [← hnext, writtenVault_entry, if_pos rfl]
  have hbefore : (plan.store ctx s r.key).slice r.key = _ :=
    (acceptedStore_slice s.store r.key r.key plan.bytes plan.ttl plan.guard plan.declared
      (ctx.clock.now 0)).trans (if_pos rfl)
  have hmem : r.key ∈ next.entries.keys := by
    rw [KeyMap.mem_keys_iff]
    exact Option.isSome_iff_exists.mpr ⟨_, hentry⟩
  generalize hstore : plan.store ctx s r.key = store at *
  have hslice : s₃.store.slice r.key = restoredSlice (KeySlice.valueless (store.slice r.key))
      (UnlockedVault.written (entryFor ctx store r.key plan.bytes)
        (Word64.saturatingAdd (vault.casOf r.key) 1) (ctx.wall 3))
      (unlockCtx.clock.now (next.entries.keys.idxOf r.key))
      (unlockCtx.wall (next.entries.keys.idxOf r.key)) := by
    rw [hafter, installVaultEntries_slice _ _ _ (checkCap_controlCap _)]
    unfold installedSlice
    rw [hentry]
    simp only
    rw [if_pos (restorable_entryFor store plan.bytes _ _ haccepts.valid),
      deleteAll_slice _ _ _ _ (by exact store.checkCap_controlCap), if_pos hmem]
    rfl
  have hvalue : (s₃.store.entries[r.key]?).bind CacheEntry.value = some plan.bytes := by
    rw [show s₃.store.entries[r.key]? = _ from congrArg KeySlice.entry hslice]
    rfl
  have hsoft : (s₃.store.entries[r.key]?).bind (·.ttl.soft) = none := by
    rw [show s₃.store.entries[r.key]? = _ from congrArg KeySlice.entry hslice]
    rfl
  have hguard : s₃.store.guardOf r.key =
      (store.guardOf r.key).map fun record =>
        snapshotToGuardRecord (guardRecordToSnapshot record) := by
    rw [show s₃.store.guardOf r.key = _ from congrArg KeySlice.guard hslice]
    show (restoredGuard _).or none = _
    rw [restoredGuard_entryFor, Option.or_none]
  have howner : s₃.store.ownerOf r.key = store.ownerOf r.key := by
    rw [show s₃.store.ownerOf r.key = _ from congrArg KeySlice.owner hslice]
    show (restoredOwner _).or (store.ownerOf r.key) = _
    rw [restoredOwner_entryFor]
    cases store.ownerOf r.key <;> rfl
  have hvalue' : (store.entries[r.key]?).bind CacheEntry.value = some plan.bytes := by
    rw [show store.entries[r.key]? = _ from congrArg KeySlice.entry hbefore]
    rfl
  have hsoft' : (store.entries[r.key]?).bind (·.ttl.soft) =
      r.softTtlSecs.map Duration.fromSecs := by
    rw [show store.entries[r.key]? = _ from congrArg KeySlice.entry hbefore]
    exact haccepts.soft
  have hguard' : store.guardOf r.key = plan.guard := congrArg KeySlice.guard hbefore
  have hkept : (store.guardOf r.key).map (fun record =>
      snapshotToGuardRecord (guardRecordToSnapshot record)) = store.guardOf r.key ↔
        GuardKept ctx r := by
    unfold GuardKept
    rw [hguard', haccepts.guard]
    cases plan.guard with
    | none => simp
    | some record => simp [guard_round_trip_iff]
  constructor
  · intro h
    have hs := h.soft
    rw [hsoft] at hs
    rw [show (State.store _).entries[r.key]? = store.entries[r.key]? from rfl, hsoft'] at hs
    refine ⟨by simpa using hs.symm, hkept.mp ?_⟩
    rw [← hguard]
    exact h.guard
  · rintro ⟨hnone, hrecords⟩
    refine ⟨hvalue.trans hvalue'.symm, hguard.trans (hkept.mpr hrecords), howner, ?_⟩
    rw [hsoft]
    show none = (store.entries[r.key]?).bind (·.ttl.soft)
    rw [hsoft', hnone]
    rfl

end RoundTrip

section Plain

/-- A daemon whose open vault is empty. -/
def openPlain : State := State.starting (some (.unlocked Bench.plainVault)) (.holds Bench.plainVault)

def setPlain (softTtlSecs : Option UInt64) : SetRequest where
  key := "ns/k"
  source := .static (some [1])
  softTtlSecs := softTtlSecs
  hardTtlSecs := none
  guardConstraints := [.sameUser]
  expectedVersion := none
  claimToken := none
  persist := some true
  signedBy := none

def setValue (softTtlSecs hardTtlSecs : Option UInt64) : Request :=
  .kvSet { setPlain softTtlSecs with
    hardTtlSecs := hardTtlSecs, persist := none, guardConstraints := [] }

def plainCode : Key := Bench.fill 32 3

/-- The states after the set, the lock and the unlock. -/
def plainTrail (softTtlSecs : Option UInt64) : State × State × State :=
  let set := (handleRequest .quiet openPlain (.kvSet (setPlain softTtlSecs))).2
  let locked := (handleRequest .quiet set .vaultLock).2
  (set, locked, (handleRequest .quiet locked (.vaultUnlock (some (some plainCode)))).2)

theorem plainTrail_replies (soft : Option UInt64) (h : soft = none ∨ soft = some 60) :
    handleRequest .quiet openPlain (.kvSet (setPlain soft)) =
        (.ok (.set ["same-user"] (some 1) none), (plainTrail soft).1) ∧
      handleRequest .quiet (plainTrail soft).1 .vaultLock = (.ok .vaultLocked, (plainTrail soft).2.1) ∧
      handleRequest .quiet (plainTrail soft).2.1 (.vaultUnlock (some (some plainCode))) =
        (.ok (.vaultUnlocked 1), (plainTrail soft).2.2) := by
  rcases h with rfl | rfl <;>
    exact ⟨Prod.ext (by decide) rfl, Prod.ext (by decide) rfl,
      Prod.ext (by decide) rfl⟩

theorem persisted_survives_iff_plain :
    SameCredential "ns/k" (plainTrail none).1.store (plainTrail none).2.2.store := by
  obtain ⟨hset, hlock, hunlock⟩ := plainTrail_replies none (Or.inl rfl)
  refine (persisted_survives_iff .quiet .quiet .quiet openPlain _ _ _ (setPlain none) _ plainCode 1
    rfl hset hlock hunlock).mpr ⟨rfl, ?_⟩
  intro record hrecord declared pinned hmem
  have hplan : planGuardRecord [.sameUser] HandlerCtx.quiet.kvPolicy
      HandlerCtx.quiet.guardAuditToken HandlerCtx.quiet.guardChain =
      .ok (some ⟨[.sameUser], ⟨501, 501⟩⟩) := by decide
  rw [show planGuardRecord (setPlain none).guardConstraints _ _ _ = _ from hplan] at hrecord
  cases hrecord
  simp at hmem

/-- A soft TTL of a minute is gone after the vault has been closed and opened. -/
theorem soft_ttl_not_restored :
    handleRequest .quiet openPlain (.kvSet (setPlain (some 60))) =
        (.ok (.set ["same-user"] (some 1) none), (plainTrail (some 60)).1) ∧
      handleRequest .quiet (plainTrail (some 60)).1 .vaultLock =
        (.ok .vaultLocked, (plainTrail (some 60)).2.1) ∧
      handleRequest .quiet (plainTrail (some 60)).2.1 (.vaultUnlock (some (some plainCode))) =
        (.ok (.vaultUnlocked 1), (plainTrail (some 60)).2.2) ∧
      ¬ SameCredential "ns/k" (plainTrail (some 60)).1.store (plainTrail (some 60)).2.2.store := by
  obtain ⟨hset, hlock, hunlock⟩ := plainTrail_replies (some 60) (Or.inr rfl)
  refine ⟨hset, hlock, hunlock, ?_⟩
  intro h
  exact absurd h.soft (by decide)

end Plain

end Daemon

end CacheWarden
