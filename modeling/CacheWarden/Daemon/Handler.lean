import CacheWarden.Daemon.VaultState
import CacheWarden.Daemon.Wire
import CacheWarden.StoreCalls

/-!
# Request handling

One function for each request, over the store, the vault and its file. A
request brings its own context: what the clocks show, what the outside answers,
how a commit goes. The calls made to the outside are kept in a log.
-/

set_option autoImplicit false

namespace CacheWarden

namespace Daemon

open Vault

inductive OwnerDenied where
  | noPeerToken
  | requirementUnsatisfied (why : String)
  | requirementMalformed
  | unsupported
  deriving DecidableEq

inductive GuardCheckMode where
  | evaluate
  | alreadyApproved
  deriving DecidableEq

/-- What a request runs with: the configuration, the peer, and the answers of
everything outside the daemon while the request is served. -/
structure HandlerCtx where
  auth : Authenticator
  runner : SourceRunner
  clock : Clock
  wall : ℕ → UInt64
  requester : Option (List ProcessInfo)
  kvProcessPolicies : KeyMap (List String)
  satisfies : OwnerPrincipal → Except OwnerDenied Unit
  macos : Bool
  persistedKeys : List String
  guardChain : Option (List GetterProcess)
  guardAuditToken : Option GetterAuditToken
  kvPolicy : ResolvedKvPolicy
  guardCheckMode : GuardCheckMode
  deriveCode : Bytes → ValueMeta → Except String Bytes
  freshToken : ClaimToken
  freshToken_formed : ClaimToken.parse freshToken.asStr = some freshToken
  commit : CommitOutcome
  creation : Creation
  opened : Except VaultError Unit

structure State where
  store : Store
  vault : Option VaultState
  file : Stored
  now : Monotonic
  log : List ExternalCall

namespace State

def withStore (s : State) (store : Store) : State := { s with store := store }

def withVault (s : State) (vault : UnlockedVault) (file : Stored) : State :=
  { s with vault := some (.unlocked vault), file := file }

def logged (s : State) (calls : List ExternalCall) : State := { s with log := s.log ++ calls }

/-- The open vault, if there is one. -/
def openVault (s : State) : Option UnlockedVault := s.vault.bind VaultState.unlockedVault

end State

def capabilityMismatch : Response := .error .internal [.text "capability mismatch"]

section Gates

def validateProtocolKey (key : String) : Option Response :=
  if (splitComposed key).isSome then none
  else
    some (.error .badRequest [.text "invalid key ", .quoted key,
      .text ": must be NS/KEY with both segments matching [A-Za-z0-9_]+"])

def rejectReservedNamespaceWrite (key : String) : Option Response :=
  match splitComposed key with
  | some (ns, _) =>
    if isReservedNamespace ns then
      some (.error .badRequest [.text "namespace ", .quoted (String.ofList ns),
        .text " is reserved and cannot be written to"])
    else none
  | none => none

/-- Split on the first slash alone: the key need not be well formed. -/
def rejectReservedNamespaceRead (key : String) : Option Response :=
  match splitOnceSlash key.toList with
  | some (ns, _) =>
    if isReservedNamespace ns then
      some (.error .badRequest [.text "namespace ", .quoted (String.ofList ns),
        .text " is reserved and cannot be read"])
    else none
  | none => none

def ownerRefusal : Response :=
  .error .authFailed [.text "access denied by entry owner (kind: signed-by)"]

/-- Refuse an operation on an owned entry to anyone but its owner. -/
def requireOwner (ctx : HandlerCtx) (s : State) (key : String) : Option Response :=
  match s.store.ownerOf key with
  | none => none
  | some owner =>
    match ctx.satisfies owner with
    | .ok () => none
    | .error _ => some ownerRefusal

def parseSignedBy (macos : Bool) (decl : SignedByWire) : Except Response OwnerPrincipal :=
  if macos then
    (OwnerPrincipal.declare decl.anchor decl.teamId decl.identifier).mapError fun e =>
      .error .badRequest [.ownerDecl e]
  else
    .error (.error .badRequest [.text "signed-by needs code-signature evaluation, which this platform does not have: an entry declared here could never be read again"])

inductive VaultOwnership where
  | unrelated
  | owned
  | unavailable (resp : Response)
  deriving DecidableEq

def lockedRefusal : Response :=
  .error .vaultLocked [.text "the vault is locked; run `cache-warden vault unlock` — the value is intact"]

/-- What the vault has to say about one key. A closed vault answers for the keys
the configuration declares, and for no others. -/
def vaultOwnership (ctx : HandlerCtx) (s : State) (key : String) : VaultOwnership :=
  match s.vault with
  | none => .unrelated
  | some (.unlocked vault) => if (vault.entry key).isSome then .owned else .unrelated
  | some .locked =>
    if key ∈ ctx.persistedKeys then .unavailable lockedRefusal else .unrelated
  | some .notInitialized =>
    if key ∈ ctx.persistedKeys then
      .unavailable (.error .vaultNotInitialized [.text "this entry is declared `persist = true` but no vault has been created yet; run `cache-warden vault init`"])
    else .unrelated

def requireUnlockedVault (s : State) : Option Response :=
  match s.vault with
  | none =>
    some (.error .vaultNotInitialized [.text "this daemon has no vault configured, so it cannot persist entries; set [vault] in the config and run `cache-warden vault init`"])
  | some (.unlocked _) => none
  | some .locked => some lockedRefusal
  | some .notInitialized =>
    some (.error .vaultNotInitialized [.text "no vault has been created yet; run `cache-warden vault init` (it prints a recovery code you must keep)"])

/-- Both sides are parsed: a held token that no longer parses matches nothing. -/
def claimTokenMatches (held supplied : String) : Bool :=
  match ClaimToken.parse held, ClaimToken.parse supplied with
  | some a, some b => a.matches b
  | _, _ => false

/-- The store's claim on a key, if it is active at `now`. -/
def activeClaimOf (store : Store) (key : String) (now : UInt64) : Option RefreshClaim :=
  (store.refreshClaimOf key).filter (·.isActiveAt now)

def checkClaimFence (store : Store) (key : String) (token : Option String) (now : UInt64) :
    Option Response :=
  match activeClaimOf store key now with
  | none => none
  | some active =>
    match token with
    | none =>
      some (.error .claimTokenMismatch [.text "a refresh is already in progress for this key; wait for it to finish, or pass the token from your own `kv claim`"])
    | some t =>
      if claimTokenMatches active.token t then none
      else
        some (.error .claimTokenMismatch [.text "this claim token is no longer the one holding the key: the claim lapsed and another caller took over. Re-read the key and claim again"])

end Gates

section Set

def guardPlanRefusal : GuardPlanError → Response
  | .noAuditToken =>
    .error .authFailed [.text "cannot construct guard record: peer audit token unavailable"]
  | .noShell =>
    .error .badRequest [.text "--require-same-shell: no shell (zsh/bash/fish/sh/nu or [kv-policy] shell-names) found in setter ancestry"]
  | .noAncestor target =>
    .error .badRequest [.text "--require-same-ancestor=", .text target,
      .text ": no matching entry in setter ancestry"]

/-- Every write advances the version and ends the refresh its claim was held
for. -/
def finishSet (store : Store) (key : String) (cap : Capability) (guardApplied : List String) :
    Response × Store :=
  match store.bumpVersion key cap with
  | (.error _, store) => (capabilityMismatch, store)
  | (.ok version, store) =>
    match store.clearRefreshClaim key cap with
    | (.error _, store) => (.error .internal [.text "capability mismatch (claim)"], store)
    | (.ok _, store) => (.ok (.set guardApplied (some version) none), store)

def handleSet (ctx : HandlerCtx) (store : Store) (key : String) (source : SetSource)
    (softTtlSecs hardTtlSecs : Option UInt64) (guardConstraints : List GuardConstraintWire) :
    Response × Store :=
  let cap := store.controlCap
  match validateProtocolKey key with
  | some resp => (resp, store)
  | none =>
    match rejectReservedNamespaceWrite key with
    | some resp => (resp, store)
    | none =>
      match planGuardRecord guardConstraints ctx.kvPolicy ctx.guardAuditToken ctx.guardChain with
      | .error e => (guardPlanRefusal e, store)
      | .ok plan =>
        match Ttl.new (softTtlSecs.map Duration.fromSecs) (hardTtlSecs.map Duration.fromSecs) with
        | .error e => (.error .badRequest [.ttl e], store)
        | .ok ttl =>
          match source with
          | .static none => (.error .badRequest [.text "value_b64 is not valid base64"], store)
          | .static (some bytes) =>
            match store.set key .static bytes ttl cap (ctx.clock.now 0) with
            | (.error (.invalidKey e), store) => (.error .badRequest [.invalidKey e], store)
            | (.error .capMismatch, store) => (capabilityMismatch, store)
            | (.ok (), store) =>
              match plan with
              | some record =>
                match store.setGuard key record cap with
                | (.error _, store) =>
                  (.error .internal [.text "capability mismatch (guard)"], (store.delete key cap).2)
                | (.ok (), store) =>
                  finishSet store key cap (record.constraints.map constraintKindLabel)
              | none =>
                match store.clearGuard key cap with
                | (.error _, store) =>
                  (.error .internal [.text "capability mismatch (guard)"], store)
                | (.ok _, store) => finishSet store key cap []

/-- What a set is refused for before it reaches the store, or the owner it
declares and whether it is to be persisted. -/
def gateSet (ctx : HandlerCtx) (s : State) (r : SetRequest) :
    Except Response (Option OwnerPrincipal × Bool) :=
  match validateProtocolKey r.key with
  | some resp => .error resp
  | none =>
    match requireOwner ctx s r.key with
    | some resp => .error resp
    | none =>
      match (r.signedBy.map (parseSignedBy ctx.macos)) with
      | some (.error resp) => .error resp
      | declared =>
        let declaredOwner := declared.bind Except.toOption
        let persist := r.persist.getD false || r.key ∈ ctx.persistedKeys
        if persist && r.hardTtlSecs.isSome then
          .error (.error .badRequest [.text "a persisted entry cannot carry a hard TTL: cache-warden is the only holder of its value, so an expiry would destroy it outright rather than fall back to re-fetching. Drop `hard_ttl`, or drop persistence"])
        else
          match (if persist then requireUnlockedVault s else none) with
          | some resp => .error resp
          | none =>
            if r.expectedVersion.any (s.store.versionOf r.key ≠ ·) then
              .error (.casMismatch (s.store.versionOf r.key))
            else
              match checkClaimFence s.store r.key r.claimToken (ctx.wall 0) with
              | some resp => .error resp
              | none => .ok (declaredOwner, persist)

/-- A pinned path that is no text cannot be written as JSON. -/
def guardToJson (record : SnapshotGuard) : Except (List Piece) (JsonSlot SnapshotGuard) :=
  if record.constraints.all fun
    | .sameAncestor _ pinned =>
      match pinned.path with
      | .utf8 _ => true
      | .raw _ => false
    | _ => true
  then .ok (.value record)
  else .error [.text "path contains invalid UTF-8 characters"]

/-- The entry a persisted set writes: the value with the version, the guard and
the owner the store has for the key. -/
def persistedEntry (ctx : HandlerCtx) (store : Store) (key : String) (bytes : Bytes) :
    Except Response VaultEntry :=
  let entry := { VaultEntry.new key bytes (ctx.wall 1) with casVersion := store.versionOf key }
  let guard : Except (List Piece) (Option (JsonSlot SnapshotGuard)) :=
    match store.guardOf key with
    | none => .ok none
    | some record => (guardToJson (guardRecordToSnapshot record)).map some
  match guard with
  | .error e =>
    .error (.error .internal ([.text "the entry's guard could not be persisted, so the value was not: "] ++ e))
  | .ok guard => .ok { entry with guard := guard, owner := (store.ownerOf key).map .value }

/-- Write a value just set through to the vault: the error that replaces the
acknowledgement, if there is one. -/
def writeThroughToVault (ctx : HandlerCtx) (s : State) (key : String) (source : SetSource)
    (claimToken : Option String) : Option Response × State :=
  match source with
  | .static none => (some (.error .badRequest [.text "value is not valid base64"]), s)
  | .static (some bytes) =>
    match s.vault with
    | none =>
      (some (.error .vaultNotInitialized [.text "this daemon has no vault configured"]), s)
    | some state =>
      match state.unlockedVault with
      | none =>
        (some (.error .vaultLocked [.text "the vault is locked; run `cache-warden vault unlock`"]),
          s)
      | some vault =>
        match persistedEntry ctx s.store key bytes with
        | .error resp => (some resp, s)
        | .ok entry =>
          let written := vault.upsert (Stored.commitTo ctx.commit) (ctx.wall 2) (ctx.wall 3) entry
            (claimToken.bind ClaimToken.parse) s.file
          match written.1 with
          | .ok _ => (none, s.withVault written.2.1 written.2.2)
          | .error e =>
            (some (.error .internal [.text "value was not persisted: ", .vault e]),
              s.withVault written.2.1 written.2.2)

/-- Settle the owner a set declared, once the write has succeeded. -/
def settleOwner (store : Store) (key : String) (declared : Option OwnerPrincipal) : Store :=
  match declared with
  | some principal => (store.setOwner key principal store.controlCap).2
  | none => store

/-- The acknowledgement names the owner now in force. -/
def ackOwner (payload : OkPayload) (owner : Option OwnerPrincipal) : OkPayload :=
  match payload, owner with
  | .set guardApplied version _, some owner => .set guardApplied version (some owner.summary)
  | payload, _ => payload

def handleKvSet (ctx : HandlerCtx) (s : State) (r : SetRequest) : Response × State :=
  match gateSet ctx s r with
  | .error resp => (resp, s)
  | .ok (declaredOwner, persist) =>
    match handleSet ctx s.store r.key r.source r.softTtlSecs
      (if persist then none else r.hardTtlSecs) r.guardConstraints with
    | (.err e, store) => (.err e, s.withStore store)
    | (.ok payload, store) =>
      let store := settleOwner store r.key declaredOwner
      let payload := ackOwner payload (store.ownerOf r.key)
      if persist then
        match writeThroughToVault ctx (s.withStore store) r.key r.source r.claimToken with
        | (some resp, s) => (resp, s)
        | (none, s) => (.ok payload, s)
      else (.ok payload, s.withStore store)

end Set

section Restore

/-- The owner or guard a slot of a vault entry holds, unless it cannot be read. -/
def readSlot {α : Type} : Option (JsonSlot α) → Except Unit (Option α)
  | none => .ok none
  | some (.value a) => .ok (some a)
  | some (.foreign _) => .error ()

def installClaim (store : Store) (key : String) (claim : Option Claim) (cap : Capability) : Store :=
  match claim with
  | none => store
  | some claim =>
    (store.setRefreshClaim key
      ⟨claim.token.asStr, claim.claimedAtEpochMs, claim.expiresAtEpochMs⟩ cap).2

/-- Load one entry of the vault into the store, and say whether it came back. -/
def installVaultEntry (store : Store) (cap : Capability) (now : Monotonic) (wall : UInt64)
    (key : String) (entry : VaultEntry) : Bool × Store :=
  match Ttl.new ((entry.definition.bind VaultDefinition.softTtlMs).map Duration.fromMillis) none with
  | .error _ => (false, store)
  | .ok ttl =>
    match readSlot entry.guard with
    | .error () => (false, store)
    | .ok guard =>
      match readSlot entry.owner with
      | .error () => (false, store)
      | .ok owner =>
        match store.set key .static entry.secret ttl cap now with
        | (.error _, store) => (false, store)
        | (.ok (), store) =>
          match store.restoreVersion key entry.casVersion cap with
          | (.error _, store) => (false, (store.delete key cap).2)
          | (.ok _, store) =>
            match guard with
            | some record =>
              match store.setGuard key (snapshotToGuardRecord record) cap with
              | (.error _, store) => (false, (store.delete key cap).2)
              | (.ok (), store) => finishInstall store owner
            | none => finishInstall store owner
where
  finishInstall (store : Store) (owner : Option OwnerPrincipal) : Bool × Store :=
    match owner with
    | some principal =>
      match store.setOwner key principal cap with
      | (.error _, store) => (false, (store.delete key cap).2)
      | (.ok (), store) => (true, installClaim store key (entry.activeClaim wall) cap)
    | none => (true, installClaim store key (entry.activeClaim wall) cap)

/-- The entries of a vault, one by one; each reads both clocks once. -/
def installEntries (cap : Capability) (clock : Clock) (wall : ℕ → UInt64) (vault : UnlockedVault) :
    ℕ → List String → Store → ℕ × Store
  | _, [], store => (0, store)
  | i, key :: keys, store =>
    match vault.entry key with
    | none => installEntries cap clock wall vault (i + 1) keys store
    | some entry =>
      let installed := installVaultEntry store cap (clock.now i) (wall i) key entry
      let rest := installEntries cap clock wall vault (i + 1) keys installed.2
      (rest.1 + (if installed.1 then 1 else 0), rest.2)

def installVaultEntries (store : Store) (cap : Capability) (clock : Clock) (wall : ℕ → UInt64)
    (vault : UnlockedVault) : ℕ × Store :=
  installEntries cap clock wall vault 0 vault.entries.keys store

end Restore

section VaultRequests

def handleVaultInit (ctx : HandlerCtx) (s : State) : Response × State :=
  match s.vault with
  | none =>
    (.error .vaultNotInitialized [.text "this daemon has no vault configured; set [vault] in the config first"], s)
  | some state =>
    match state.init ctx.creation s.file with
    | (.ok (id, code), state, file) =>
      (.ok (.vaultInitialized id code), { s with vault := some state, file := file })
    | (.error .alreadyExists, state, file) =>
      (.error .badRequest [.text "a vault already exists here; `vault unlock` it, or move it aside to start over (its contents cannot be recovered without its recovery code)"],
        { s with vault := some state, file := file })
    | (.error (.vault e), state, file) =>
      (.error .badRequest [.vault e], { s with vault := some state, file := file })

/-- Open the vault and let its entries replace what the store has under their
names. -/
def unlockAndInstall (ctx : HandlerCtx) (s : State) (state : VaultState) :
    Except VaultUnlockError ℕ × State :=
  match state.unlock ctx.opened s.file with
  | (.error e, state) => (.error e, { s with vault := some state })
  | (.ok (), state) =>
    match state.unlockedVault with
    | none => (.ok 0, { s with vault := some state })
    | some vault =>
      let installed := installVaultEntries s.store s.store.controlCap ctx.clock ctx.wall vault
      (.ok installed.1, { s with vault := some state, store := installed.2 })

def handleVaultUnlock (ctx : HandlerCtx) (s : State) (recoveryCode : Option Key) :
    Response × State :=
  match s.vault with
  | none => (.error .vaultNotInitialized [.text "this daemon has no vault configured"], s)
  | some state =>
    match recoveryCode with
    | none => (.error .badRequest [.vault .malformedRecoveryCode], s)
    | some _ =>
      match unlockAndInstall ctx s state with
      | (.ok restored, s) => (.ok (.vaultUnlocked restored), s)
      | (.error .notInitialized, s) =>
        (.error .vaultNotInitialized [.text "no vault has been created yet; run `cache-warden vault init`"], s)
      | (.error (.vault _), s) =>
        (.error .authFailed [.text "that recovery code does not open this vault"], s)

def deleteAll (cap : Capability) : List String → Store → Store
  | [], store => store
  | key :: keys, store => deleteAll cap keys (store.delete key cap).2

/-- Closing the vault takes the values with it. -/
def handleVaultLock (ctx : HandlerCtx) (s : State) : Response × State :=
  match s.vault with
  | none => (.error .vaultNotInitialized [.text "this daemon has no vault configured"], s)
  | some state =>
    match state.unlockedVault with
    | none => (.ok .vaultLocked, s)
    | some vault =>
      match state.lock ctx.opened s.file with
      | (.error e, state) => (.error .internal [.vault e], { s with vault := some state })
      | (.ok (), state) =>
        (.ok .vaultLocked,
          { s with
            vault := some state
            store := deleteAll s.store.controlCap vault.entries.keys s.store })

end VaultRequests

section Delete

/-- Remove one entry from the open vault, durably. -/
def deleteFromVault (ctx : HandlerCtx) (s : State) (key : String) : Option Response × State :=
  match s.vault with
  | none => (none, s)
  | some state =>
    match state.unlockedVault with
    | none =>
      (some (.error .vaultLocked [.text "the vault is locked; run `cache-warden vault unlock`"]), s)
    | some vault =>
      let removed := vault.delete (Stored.commitTo ctx.commit) key s.file
      match removed.1 with
      | .ok _ => (none, s.withVault removed.2.1 removed.2.2)
      | .error e =>
        (some (.error .internal [.text "the entry was not removed from the vault: ", .vault e]),
          s.withVault removed.2.1 removed.2.2)

/-- `unwrap_or(false)`. -/
def removedOr (r : Except CapError Bool) : Bool := r.toOption.getD false

def handleDel (ctx : HandlerCtx) (s : State) (key : String) (withDefine : Bool) :
    Response × State :=
  match vaultOwnership ctx s key with
  | .unavailable resp => (resp, s)
  | .unrelated =>
    let removed :=
      if withDefine then s.store.deleteWithDefinition key s.store.controlCap
      else s.store.delete key s.store.controlCap
    (.ok (.deleted (removedOr removed.1)), s.withStore removed.2)
  | .owned =>
    match deleteFromVault ctx s key with
    | (some resp, s) => (resp, s)
    | (none, s) =>
      (.ok (.deleted true),
        s.withStore (s.store.deleteWithDefinition key s.store.controlCap).2)

end Delete

section Claims

def maxClaimSecs : UInt64 := 3600

/-- `div_ceil(1_000)`. -/
def ceilSecs (ms : UInt64) : UInt64 := if ms % 1000 = 0 then ms / 1000 else ms / 1000 + 1

/-- The token the vault issues for an entry it owns, `none` where the key is not
the vault's. -/
def takeClaimInVault (ctx : HandlerCtx) (s : State) (key : String)
    (expectedVersion durationSecs : UInt64) : Except Response (Option ClaimToken) × State :=
  match s.openVault with
  | none => (.ok none, s)
  | some vault =>
    if (vault.entry key).isNone then (.ok none, s)
    else
      let claimed := vault.claimRefresh (Stored.commitTo ctx.commit) (ctx.wall 1) ctx.freshToken key
        expectedVersion (Duration.fromSecs durationSecs) s.file
      match claimed.1 with
      | .ok token => (.ok (some token), s.withVault claimed.2.1 claimed.2.2)
      | .error (.casMismatch current) =>
        (.error (.casMismatch current), s.withVault claimed.2.1 claimed.2.2)
      | .error (.alreadyClaimed expiresAtEpochMs) =>
        (.error (.alreadyClaimed
          (ceilSecs (Word64.saturatingSub expiresAtEpochMs (ctx.wall 2)))),
          s.withVault claimed.2.1 claimed.2.2)
      | .error e =>
        (.error (.error .internal [.text "the claim was not recorded durably: ", .vault e]),
          s.withVault claimed.2.1 claimed.2.2)

def releaseClaimInVault (ctx : HandlerCtx) (s : State) (key token : String) :
    Option Response × State :=
  match s.openVault with
  | none => (none, s)
  | some vault =>
    if (vault.entry key).isNone then (none, s)
    else
      match ClaimToken.parse token with
      | none => (some (.error .internal [.text "malformed claim token"]), s)
      | some parsed =>
        let released := vault.releaseClaim (Stored.commitTo ctx.commit) (ctx.wall 1) key parsed
          s.file
        match released.1 with
        | .ok () => (none, s.withVault released.2.1 released.2.2)
        | .error e =>
          (some (.error .internal [.text "the claim was not released durably: ", .vault e]),
            s.withVault released.2.1 released.2.2)

def handleClaim (ctx : HandlerCtx) (s : State) (key : String)
    (expectedVersion durationSecs : UInt64) : Response × State :=
  match validateProtocolKey key with
  | some resp => (resp, s)
  | none =>
    match vaultOwnership ctx s key with
    | .unavailable resp => (resp, s)
    | _ =>
      if !s.store.hasValue key then
        (.error .notFound [.text "no value stored for this key"], s)
      else if durationSecs = 0 || maxClaimSecs < durationSecs then
        (.error .badRequest [.text "claim duration must be between 1 and ",
          .number maxClaimSecs.toNat,
          .text " seconds (a claim that outlives the caller has to expire for the key to be reclaimed)"],
          s)
      else
        let current := s.store.versionOf key
        if current ≠ expectedVersion then (.casMismatch current, s)
        else
          match activeClaimOf s.store key (ctx.wall 0) with
          | some active => (.alreadyClaimed (ceilSecs (active.remainingMs (ctx.wall 0))), s)
          | none =>
            match takeClaimInVault ctx s key current durationSecs with
            | (.error resp, s) => (resp, s)
            | (.ok fromVault, s) =>
              let token := fromVault.getD ctx.freshToken
              let claim : RefreshClaim := ⟨token.asStr, ctx.wall 0,
                Word64.saturatingAdd (ctx.wall 0) (Word64.saturatingMul durationSecs 1000)⟩
              match s.store.setRefreshClaim key claim s.store.controlCap with
              | (.error _, store) =>
                (.error .internal [.text "capability mismatch (claim)"], s.withStore store)
              | (.ok (), store) =>
                (.ok (.claimed current token.asStr durationSecs), s.withStore store)

def handleUnclaim (ctx : HandlerCtx) (s : State) (key claimToken : String) : Response × State :=
  match validateProtocolKey key with
  | some resp => (resp, s)
  | none =>
    match vaultOwnership ctx s key with
    | .unavailable resp => (resp, s)
    | _ =>
      if (activeClaimOf s.store key (ctx.wall 0)).any fun active =>
        !claimTokenMatches active.token claimToken
      then
        (.error .claimTokenMismatch [.text "this claim token is no longer the one holding the key, so releasing it would cancel someone else's refresh"],
          s)
      else
        match releaseClaimInVault ctx s key claimToken with
        | (some resp, s) => (resp, s)
        | (none, s) =>
          match s.store.clearRefreshClaim key s.store.controlCap with
          | (.error _, store) =>
            (.error .internal [.text "capability mismatch (claim)"], s.withStore store)
          | (.ok _, store) => (.ok .unclaimed, s.withStore store)

end Claims

section Define

def handleDefine (s : State) (key : String) (source : SourceSpecWire)
    (softTtlSecs hardTtlSecs : Option UInt64) (valueMeta : ValueMetaWire) : Response × State :=
  match validateProtocolKey key with
  | some resp => (resp, s)
  | none =>
    match rejectReservedNamespaceWrite key with
    | some resp => (resp, s)
    | none =>
      match source.validate with
      | .error e => (.error .badRequest e, s)
      | .ok () =>
        match Ttl.new (softTtlSecs.map Duration.fromSecs) (hardTtlSecs.map Duration.fromSecs) with
        | .error e => (.error .badRequest [.ttl e], s)
        | .ok ttl =>
          match s.store.defineWithMeta key source.lower ttl (metaFromWire valueMeta)
            source.toSourceMeta with
          | (.ok (), store) => (.ok .defined, s.withStore store)
          | (.error .conflict, store) =>
            (.error .badRequest [.text "a different definition already exists for this key; delete it with `kv del KEY --with-define`, then re-define"],
              s.withStore store)
          | (.error .staticNotDefinable, store) =>
            (.error .badRequest [.text "static sources cannot be defined; use `kv set` instead"],
              s.withStore store)
          | (.error (.invalidKey e), store) => (.error .badRequest [.invalidKey e], s.withStore store)

end Define

section Get

def metaIsOtp (m : ValueMeta) : Bool := m.typeLabel = some "otp"

def metaOf (store : Store) (key : String) : ValueMeta :=
  match store.definitions[key]? with
  | some d => d.valueMeta
  | none => ValueMeta.new

/-- Shape the reply for a resident, readable value: the code derived from it
where the definition says otp, the value itself elsewhere. -/
def finishGet (ctx : HandlerCtx) (s : State) (key : String) (dryRun : Bool) (now : Monotonic) :
    Response × State :=
  let read := s.store.get key s.store.controlCap now
  let s := s.withStore read.2
  if metaIsOtp (metaOf s.store key) then
    match read.1 with
    | .error _ => (.error .internal [.text "internal cap mismatch"], s)
    | .ok none => (.error .internal [.text "value gone before otp derive"], s)
    | .ok (some seed) =>
      match ctx.deriveCode seed (metaOf s.store key) with
      | .error e => (.error .badRequest [.text e], s)
      | .ok code => (.ok (if dryRun then .getVerified "active" else .get code), s)
  else
    match read.1 with
    | .ok (some value) => (.ok (if dryRun then .getVerified "active" else .get value), s)
    | _ => (.error .internal [.text "value gone before finish_get"], s)

/-- A plain get once a value should be there. -/
def getAgain (ctx : HandlerCtx) (s : State) (key : String) (dryRun : Bool) (gone : String) :
    Response × State :=
  let read := s.store.get key s.store.controlCap (ctx.clock.now 5)
  let s := s.withStore read.2
  match read.1 with
  | .ok (some _) => finishGet ctx s key dryRun (ctx.clock.now 6)
  | _ => (.error .internal [.text gone], s)

def backoffRefusal (retryAfter : Duration) : Response :=
  .error .upstreamFailed [.text "backoff active after previous fetch failure; retry after ",
    .seconds retryAfter, .text "s"]

def lazyGenerate (ctx : HandlerCtx) (s : State) (key : String) (dryRun : Bool) : Response × State :=
  let cap := s.store.controlCap
  let clock := ctx.clock.after 2
  let fetched := s.store.getOrRegenerate key ctx.runner ctx.auth ctx.requester cap clock
  let s := (s.withStore fetched.2).logged
    (s.store.getOrRegenerateCalls key ctx.runner ctx.auth ctx.requester cap clock)
  match fetched.1 with
  | .ok () => getAgain ctx s key dryRun "value gone after lazy generation"
  | .error .undefined => (.error .notFound [.text "no such key"], s)
  | .error .valueResident => getAgain ctx s key dryRun "value resident but unreadable"
  | .error (.runFailed e) => (.error .upstreamFailed [.run e], s)
  | .error (.authFailed e) => (.error .authFailed [.auth e], s)
  | .error (.backoff retryAfter) => (backoffRefusal retryAfter, s)
  | .error .capMismatch => (capabilityMismatch, s)

def extendAndGet (ctx : HandlerCtx) (s : State) (key : String) (dryRun : Bool) : Response × State :=
  let cap := s.store.controlCap
  let clock := ctx.clock.after 2
  let extended := s.store.extendAuthenticated key ctx.auth ctx.requester cap clock
  let s := (s.withStore extended.2).logged
    (s.store.extendAuthenticatedCalls key ctx.auth ctx.requester cap clock)
  match extended.1 with
  | .ok () => getAgain ctx s key dryRun "value gone after extend"
  | .error .notFound => (.error .notFound [.text "no such key"], s)
  | .error .hardExpired => (.error .authFailed [.text "entry hard-expired during extend"], s)
  | .error (.authFailed e) => (.error .authFailed [.auth e], s)
  | .error .capMismatch => (capabilityMismatch, s)

def regenerateAndGet (ctx : HandlerCtx) (s : State) (key : String) (dryRun : Bool) :
    Response × State :=
  let cap := s.store.controlCap
  let clock := ctx.clock.after 2
  let fetched := s.store.regenerate key ctx.runner ctx.auth ctx.requester cap clock
  let s := (s.withStore fetched.2).logged
    (s.store.regenerateCalls key ctx.runner ctx.auth ctx.requester cap clock)
  match fetched.1 with
  | .ok () => getAgain ctx s key dryRun "value gone after regenerate"
  | .error .notFound => (.error .notFound [.text "no such key"], s)
  | .error .notRegenerable =>
    (.error .notRegenerable [.text "static entry hard-expired; re-set it instead"], s)
  | .error .notHardExpired =>
    (.error .internal [.text "entry not hard-expired during regenerate"], s)
  | .error (.runFailed e) => (.error .upstreamFailed [.run e], s)
  | .error (.authFailed e) => (.error .authFailed [.auth e], s)
  | .error (.backoff retryAfter) => (backoffRefusal retryAfter, s)
  | .error .capMismatch => (capabilityMismatch, s)

/-- What a get is refused for before the value is looked at: the namespace, the
owner, the process policy, the guard. -/
def gateGet (ctx : HandlerCtx) (s : State) (key : String) : Option Response :=
  match rejectReservedNamespaceRead key with
  | some resp => some resp
  | none =>
    match requireOwner ctx s key with
    | some resp => some resp
    | none =>
      if (ctx.kvProcessPolicies[key]?).any fun allowed => !chainGatePasses ctx.requester allowed then
        some (.error .authFailed [.text "process not permitted to access this key"])
      else
        match ctx.guardCheckMode, s.store.guardOf key with
        | .evaluate, some record =>
          match ctx.guardChain with
          | none =>
            some (.error .authFailed [.text "access denied by entry guard (kind: missing-context)"])
          | some chain =>
            match evaluate chain ctx.guardAuditToken record with
            | .ok _ => none
            | .error kind =>
              some (.error .authFailed [.text "access denied by entry guard (kind: ",
                .text (deniedKindLabel kind), .text ")"])
        | _, _ => none

/-- A get past its gates: read, extend, regenerate or generate. -/
def retrieve (ctx : HandlerCtx) (s : State) (key : String) (dryRun : Bool) : Response × State :=
  let read := s.store.get key s.store.controlCap (ctx.clock.now 0)
  let s := s.withStore read.2
  match read.1 with
  | .ok (some _) => finishGet ctx s key dryRun (ctx.clock.now 1)
  | _ =>
    let state := s.store.stateOf key (ctx.clock.now 1)
    let s := s.withStore state.2
    match state.1 with
    | none =>
      match vaultOwnership ctx s key with
      | .unavailable resp => (resp, s)
      | _ =>
        if s.store.isDefined key then lazyGenerate ctx s key dryRun
        else if key ∈ ctx.persistedKeys then
          (.error .notRegenerable [.text "this entry is cache-warden's to keep and it holds no value for it; it cannot be re-fetched, so set it again explicitly"],
            s)
        else (.error .notFound [.text "no such key"], s)
    | some .active => (.error .internal [.text "entry state changed during read"], s)
    | some .softExpired => extendAndGet ctx s key dryRun
    | some .hardExpired =>
      if s.store.isDefined key then lazyGenerate ctx s key dryRun
      else regenerateAndGet ctx s key dryRun

def handleGet (ctx : HandlerCtx) (s : State) (key : String) (dryRun : Bool) : Response × State :=
  match gateGet ctx s key with
  | some resp => (resp, s)
  | none => retrieve ctx s key dryRun

end Get

section Pin

def handlePin (ctx : HandlerCtx) (s : State) (key : String) (durationSecs : UInt64) :
    Response × State :=
  let cap := s.store.controlCap
  let clock := ctx.clock.after 1
  let deadline := (ctx.clock.now 0).saturatingAdd (Duration.fromSecs durationSecs)
  let pinned := s.store.pinAuthenticated key deadline ctx.auth ctx.requester cap clock
  let s := (s.withStore pinned.2).logged
    (s.store.pinAuthenticatedCalls key deadline ctx.auth ctx.requester cap clock)
  match pinned.1 with
  | .ok () => (.ok (.pinned durationSecs), s)
  | .error .notFound => (.error .notFound [.text "no such key"], s)
  | .error .hardExpired =>
    (.error .hardExpired [.text "entry is hard-expired (destroyed); cannot pin"], s)
  | .error (.authFailed e) => (.error .authFailed [.auth e], s)
  | .error .capMismatch => (capabilityMismatch, s)

def handleUnpin (s : State) (key : String) : Response × State :=
  match s.store.unpin key s.store.controlCap with
  | (.ok true, store) => (.ok .unpinned, s.withStore store)
  | (.ok false, store) => (.error .notFound [.text "no such key"], s.withStore store)
  | (.error _, store) => (capabilityMismatch, s.withStore store)

def handleOwnerClear (s : State) (key : String) : Response × State :=
  match s.store.clearOwner key s.store.controlCap with
  | (.ok true, store) => (.ok .ownerCleared, s.withStore store)
  | (.ok false, store) => (.error .notFound [.text "this entry has no owner"], s.withStore store)
  | (.error _, store) => (capabilityMismatch, s.withStore store)

end Pin

/-- Run an operation if the caller is the owner of the key. -/
def ownerOnly (ctx : HandlerCtx) (s : State) (key : String) (operation : Response × State) :
    Response × State :=
  match requireOwner ctx s key with
  | some resp => (resp, s)
  | none => operation

def handleRequest (ctx : HandlerCtx) (s : State) : Request → Response × State
  | .ping => (.ok .pong, s)
  | .kvDel key withDefine => ownerOnly ctx s key (handleDel ctx s key withDefine)
  | .kvSet request => handleKvSet ctx s request
  | .vaultInit => handleVaultInit ctx s
  | .vaultUnlock (some code) => handleVaultUnlock ctx s code
  | .vaultUnlock none =>
    (.error .internal [.text "a passkey unlock must be dispatched by run_request_async"], s)
  | .kvOwnerClear key => ownerOnly ctx s key (handleOwnerClear s key)
  | .vaultLock => handleVaultLock ctx s
  | .vaultAddPasskey =>
    (.error .internal [.text "vault.add_passkey must be dispatched by run_request_async"], s)
  | .kvClaim key expectedVersion durationSecs =>
    ownerOnly ctx s key (handleClaim ctx s key expectedVersion durationSecs)
  | .kvUnclaim key claimToken => ownerOnly ctx s key (handleUnclaim ctx s key claimToken)
  | .kvDefine key source softTtlSecs hardTtlSecs valueMeta =>
    ownerOnly ctx s key (handleDefine s key source softTtlSecs hardTtlSecs valueMeta)
  | .kvGet key dryRun => handleGet ctx s key dryRun
  | .kvPin key durationSecs => ownerOnly ctx s key (handlePin ctx s key durationSecs)
  | .kvUnpin key => ownerOnly ctx s key (handleUnpin s key)
  | .restartGraceful =>
    (.error .internal [.text "restart_graceful must be dispatched by run_request"], s)

/-- A context in which no command runs and nobody approves anything, on clocks
that stand at zero. -/
def HandlerCtx.quiet : HandlerCtx where
  auth _ := .error .denied
  runner _ _ _ := .error .noProgram
  clock := Clock.constant Monotonic.zero
  wall _ := 0
  requester := some []
  kvProcessPolicies := ∅
  satisfies _ := .ok ()
  macos := true
  persistedKeys := []
  guardChain := some [⟨⟨100, none, some (.utf8 "/bin/zsh"), none⟩, some 7⟩]
  guardAuditToken := some ⟨501, 501⟩
  kvPolicy := ⟨false, ["zsh", "bash"]⟩
  guardCheckMode := .evaluate
  deriveCode _ _ := .error ""
  freshToken := ⟨"AAAAAAAAAAAAAAAAAAAAAA"⟩
  freshToken_formed := by decide
  commit := .done
  creation := .refused .truncated
  opened := .ok ()

/-- The daemon at its start, with the vault in a given state. -/
def State.starting (vault : Option VaultState) (file : Stored) : State where
  store := Store.newWithToken 0 Duration.zero
  vault := vault
  file := file
  now := Monotonic.zero
  log := []

end Daemon

end CacheWarden
