import CacheWarden.Records

/-!
# The in-memory store

Seven maps with different lifetimes. A guard and a claim follow the value; a
failure record follows the definition; an owner and a version outlive both and
go only when the key itself is removed. Every operation that reads the clock
takes the readings it makes; every operation that touches a secret checks the
caller's capability first.
-/

set_option autoImplicit false

namespace CacheWarden

inductive SetError where
  | invalidKey (e : InvalidKey)
  | capMismatch
  deriving DecidableEq

inductive ExtendOutcome where
  | notFound
  | hardExpired
  | capMismatch
  deriving DecidableEq

inductive ExtendAuthOutcome where
  | notFound
  | hardExpired
  | authFailed (e : AuthError)
  | capMismatch
  deriving DecidableEq

inductive RegenerateOutcome where
  | notFound
  | notRegenerable
  | notHardExpired
  | runFailed (e : RunError)
  | authFailed (e : AuthError)
  | backoff (retryAfter : Duration)
  | capMismatch
  deriving DecidableEq

inductive RegenerateDefOutcome where
  | undefined
  | valueResident
  | runFailed (e : RunError)
  | authFailed (e : AuthError)
  | backoff (retryAfter : Duration)
  | capMismatch
  deriving DecidableEq

inductive PinAuthOutcome where
  | notFound
  | hardExpired
  | authFailed (e : AuthError)
  | capMismatch
  deriving DecidableEq

structure Store where
  entries : KeyMap CacheEntry
  definitions : KeyMap Definition
  failureBackoffs : KeyMap FailureRecord
  accessGuards : KeyMap GuardRecord
  owners : KeyMap OwnerPrincipal
  versions : KeyMap UInt64
  refreshClaims : KeyMap RefreshClaim
  failureBackoffDuration : Duration
  accessToken : BitVec 128
  deriving DecidableEq

structure StoreBuilder where
  failureBackoffDuration : Duration
  deriving DecidableEq

structure StoreBundle where
  store : Store
  controlCap : Capability
  authsockCap : Capability
  otpCap : Capability
  deriving DecidableEq

namespace Store

def newWithToken (token : BitVec 128) (failureBackoffDuration : Duration) : Store where
  entries := ∅
  definitions := ∅
  failureBackoffs := ∅
  accessGuards := ∅
  owners := ∅
  versions := ∅
  refreshClaims := ∅
  failureBackoffDuration := failureBackoffDuration
  accessToken := token

/-- The capability every adapter of this store was issued. -/
def controlCap (self : Store) : Capability := ⟨self.accessToken⟩

def checkCap (self : Store) (cap : Capability) : Except CapError Unit :=
  if cap.token = self.accessToken then .ok () else .error .keyMismatch

def putEntry (self : Store) (key : String) (entry : CacheEntry) : Store :=
  { self with entries := self.entries.insert key entry }

def failureBackoffRemaining (self : Store) (key : String) (now : Monotonic) : Option Duration :=
  match self.failureBackoffs[key]? with
  | none => none
  | some record =>
    if record.retryAfter = Duration.zero then none
    else
      let elapsed := now.saturatingDurationSince record.failedAt
      if elapsed < record.retryAfter then some (record.retryAfter.saturatingSub elapsed) else none

def set (self : Store) (key : String) (source : ValueSource) (value : Bytes) (ttl : Ttl)
    (cap : Capability) (now : Monotonic) : Except SetError Unit × Store :=
  match self.checkCap cap with
  | .error _ => (.error .capMismatch, self)
  | .ok () =>
    match validateKeySyntax key with
    | .error e => (.error (.invalidKey e), self)
    | .ok () => (.ok (), self.putEntry key (CacheEntry.new source value ttl now))

def get (self : Store) (key : String) (cap : Capability) (now : Monotonic) :
    Except CapError (Option Bytes) × Store :=
  match self.checkCap cap with
  | .error e => (.error e, self)
  | .ok () =>
    match self.entries[key]? with
    | none => (.ok none, self)
    | some entry => (.ok (entry.get now).1, self.putEntry key (entry.get now).2)

def stateOf (self : Store) (key : String) (now : Monotonic) : Option EntryState × Store :=
  match self.entries[key]? with
  | none => (none, self)
  | some entry => (some (entry.evaluate now).1, self.putEntry key (entry.evaluate now).2)

def entryStatePure (self : Store) (key : String) (now : Monotonic) : Option EntryState :=
  self.entries[key]?.map (·.state now)

def extend (self : Store) (key : String) (cap : Capability) (clock : Clock) :
    Except ExtendOutcome Unit × Store :=
  match self.checkCap cap with
  | .error _ => (.error .capMismatch, self)
  | .ok () =>
    match self.entries[key]? with
    | none => (.error .notFound, self)
    | some entry =>
      ((entry.extend clock).1.mapError fun _ => .hardExpired,
        self.putEntry key (entry.extend clock).2)

def extendAuthenticatedAsking (self : Store) (key : String)
    (requester : Option (List ProcessInfo)) (cap : Capability) (clock : Clock) :
    Prompting (Except ExtendAuthOutcome Unit × Store) :=
  match self.checkCap cap with
  | .error _ => .done (.error .capMismatch, self)
  | .ok () =>
    match self.entries[key]? with
    | none => .done (.error .notFound, self)
    | some entry =>
      let entry' := (entry.evaluate (clock.now 0)).2
      let extended := entry'.extend (clock.after 1)
      match (entry.evaluate (clock.now 0)).1 with
      | .active =>
        .done (extended.1.mapError fun _ => .hardExpired, self.putEntry key extended.2)
      | .softExpired =>
        .ask ⟨key, .extend, requester⟩ fun
          | .error e => .done (.error (.authFailed e), self.putEntry key entry')
          | .ok () =>
            .done (extended.1.mapError fun _ => .hardExpired, self.putEntry key extended.2)
      | .hardExpired => .done (.error .hardExpired, self.putEntry key entry')

def extendAuthenticated (self : Store) (key : String) (auth : Authenticator)
    (requester : Option (List ProcessInfo)) (cap : Capability) (clock : Clock) :
    Except ExtendAuthOutcome Unit × Store :=
  (self.extendAuthenticatedAsking key requester cap clock).answer auth

/-- The failure arm of a fetch: a record when the backoff is configured. -/
def recordFailure (self : Store) (key : String) (now : Monotonic) : Store :=
  if Duration.zero < self.failureBackoffDuration then
    { self with
      failureBackoffs := self.failureBackoffs.insert key ⟨now, self.failureBackoffDuration⟩ }
  else self

/-- The success arm of a fetch: the failure record, the guard and the claim of
the previous value go, and a fresh entry takes its place. -/
def installFetched (self : Store) (key : String) (entry : CacheEntry) : Store :=
  { self with
    failureBackoffs := self.failureBackoffs.erase key
    accessGuards := self.accessGuards.erase key
    refreshClaims := self.refreshClaims.erase key
    entries := self.entries.insert key entry }

def regenerateAsking (self : Store) (key : String) (requester : Option (List ProcessInfo))
    (cap : Capability) (clock : Clock) : Fetching (Except RegenerateOutcome Unit × Store) :=
  match self.checkCap cap with
  | .error _ => .done (.error .capMismatch, self)
  | .ok () =>
    match self.failureBackoffRemaining key (clock.now 0) with
    | some remaining => .done (.error (.backoff remaining), self)
    | none =>
      match self.entries[key]? with
      | none => .done (.error .notFound, self)
      | some entry =>
        match entry.source with
        | .static => .done (.error .notRegenerable, self)
        | .command argv cwd env =>
          let self := self.putEntry key (entry.evaluate (clock.now 1)).2
          if (entry.evaluate (clock.now 1)).1 ≠ .hardExpired then
            .done (.error .notHardExpired, self)
          else
            .ask (.run argv cwd env) fun
              | .error e => .done (.error (.runFailed e), self.recordFailure key (clock.now 2))
              | .ok value =>
                .ask (.prompt ⟨key, .regenerate, requester⟩) fun
                  | .error e => .done (.error (.authFailed e), self)
                  | .ok () =>
                    .done (.ok (), self.installFetched key
                      (CacheEntry.new entry.source value entry.ttl (clock.now 2)))

def regenerate (self : Store) (key : String) (runner : SourceRunner) (auth : Authenticator)
    (requester : Option (List ProcessInfo)) (cap : Capability) (clock : Clock) :
    Except RegenerateOutcome Unit × Store :=
  (self.regenerateAsking key requester cap clock).answer (outside runner auth)

def pinAuthenticatedAsking (self : Store) (key : String) (deadline : Monotonic)
    (requester : Option (List ProcessInfo)) (cap : Capability) (clock : Clock) :
    Prompting (Except PinAuthOutcome Unit × Store) :=
  match self.checkCap cap with
  | .error _ => .done (.error .capMismatch, self)
  | .ok () =>
    match self.entries[key]? with
    | none => .done (.error .notFound, self)
    | some entry =>
      if entry.state (clock.now 0) = .hardExpired then .done (.error .hardExpired, self)
      else
        .ask ⟨key, .pin, requester⟩ fun
          | .error e => .done (.error (.authFailed e), self)
          | .ok () =>
            .done ((entry.pinUntil deadline (clock.now 1)).1.mapError fun _ => .hardExpired,
              self.putEntry key (entry.pinUntil deadline (clock.now 1)).2)

def pinAuthenticated (self : Store) (key : String) (deadline : Monotonic) (auth : Authenticator)
    (requester : Option (List ProcessInfo)) (cap : Capability) (clock : Clock) :
    Except PinAuthOutcome Unit × Store :=
  (self.pinAuthenticatedAsking key deadline requester cap clock).answer auth

def unpin (self : Store) (key : String) (cap : Capability) : Except CapError Bool × Store :=
  match self.checkCap cap with
  | .error e => (.error e, self)
  | .ok () =>
    match self.entries[key]? with
    | none => (.ok false, self)
    | some entry => (.ok true, self.putEntry key entry.unpin)

/-- Remove the value. The version and the owner stay. -/
def delete (self : Store) (key : String) (cap : Capability) : Except CapError Bool × Store :=
  match self.checkCap cap with
  | .error e => (.error e, self)
  | .ok () =>
    (.ok (self.entries[key]?).isSome,
      { self with
        accessGuards := self.accessGuards.erase key
        refreshClaims := self.refreshClaims.erase key
        entries := self.entries.erase key })

def defineWithMeta (self : Store) (key : String) (source : ValueSource) (ttl : Ttl)
    (valueMeta : ValueMeta) (sourceMeta : SourceMeta) : Except DefineError Unit × Store :=
  match validateKeySyntax key with
  | .error e => (.error (.invalidKey e), self)
  | .ok () =>
    match Definition.new source ttl with
    | .error e => (.error e, self)
    | .ok d =>
      let candidate := (d.withMeta valueMeta).withSourceMeta sourceMeta
      match self.definitions[key]? with
      | some existing => if existing = candidate then (.ok (), self) else (.error .conflict, self)
      | none => (.ok (), { self with definitions := self.definitions.insert key candidate })

def isDefined (self : Store) (key : String) : Bool := (self.definitions[key]?).isSome

def hasValue (self : Store) (key : String) : Bool := (self.entries[key]?).isSome

def getOrRegenerateAsking (self : Store) (key : String) (requester : Option (List ProcessInfo))
    (cap : Capability) (clock : Clock) : Fetching (Except RegenerateDefOutcome Unit × Store) :=
  match self.checkCap cap with
  | .error _ => .done (.error .capMismatch, self)
  | .ok () =>
    match self.definitions[key]? with
    | none => .done (.error .undefined, self)
    | some definition =>
      let state := (self.stateOf key (clock.now 0)).1
      let self := (self.stateOf key (clock.now 0)).2
      if state.any (· ≠ .hardExpired) then .done (.error .valueResident, self)
      else
        match self.failureBackoffRemaining key (clock.now 1) with
        | some remaining => .done (.error (.backoff remaining), self)
        | none =>
          match definition.source with
          | .static => .done (.error .undefined, self)
          | .command argv cwd env =>
            .ask (.run argv cwd env) fun
              | .error e => .done (.error (.runFailed e), self.recordFailure key (clock.now 2))
              | .ok value =>
                .ask (.prompt ⟨key, .regenerate, requester⟩) fun
                  | .error e => .done (.error (.authFailed e), self)
                  | .ok () =>
                    .done (.ok (), self.installFetched key
                      (CacheEntry.new definition.source value definition.ttl (clock.now 2)))

def getOrRegenerate (self : Store) (key : String) (runner : SourceRunner) (auth : Authenticator)
    (requester : Option (List ProcessInfo)) (cap : Capability) (clock : Clock) :
    Except RegenerateDefOutcome Unit × Store :=
  (self.getOrRegenerateAsking key requester cap clock).answer (outside runner auth)

/-- Remove the key outright: the only operation that drops a version or, as a
side effect, an owner. -/
def deleteWithDefinition (self : Store) (key : String) (cap : Capability) :
    Except CapError Bool × Store :=
  match self.checkCap cap with
  | .error e => (.error e, self)
  | .ok () =>
    (.ok ((self.entries[key]?).isSome || (self.definitions[key]?).isSome),
      { self with
        entries := self.entries.erase key
        definitions := self.definitions.erase key
        failureBackoffs := self.failureBackoffs.erase key
        accessGuards := self.accessGuards.erase key
        versions := self.versions.erase key
        owners := self.owners.erase key
        refreshClaims := self.refreshClaims.erase key })

def undefine (self : Store) (key : String) : Bool × Store :=
  ((self.definitions[key]?).isSome,
    { self with
      accessGuards := self.accessGuards.erase key
      refreshClaims := self.refreshClaims.erase key
      definitions := self.definitions.erase key })

def setGuard (self : Store) (key : String) (record : GuardRecord) (cap : Capability) :
    Except CapError Unit × Store :=
  match self.checkCap cap with
  | .error e => (.error e, self)
  | .ok () => (.ok (), { self with accessGuards := self.accessGuards.insert key record })

def clearGuard (self : Store) (key : String) (cap : Capability) : Except CapError Bool × Store :=
  match self.checkCap cap with
  | .error e => (.error e, self)
  | .ok () =>
    (.ok (self.accessGuards[key]?).isSome,
      { self with accessGuards := self.accessGuards.erase key })

def setOwner (self : Store) (key : String) (owner : OwnerPrincipal) (cap : Capability) :
    Except CapError Unit × Store :=
  match self.checkCap cap with
  | .error e => (.error e, self)
  | .ok () => (.ok (), { self with owners := self.owners.insert key owner })

def clearOwner (self : Store) (key : String) (cap : Capability) : Except CapError Bool × Store :=
  match self.checkCap cap with
  | .error e => (.error e, self)
  | .ok () => (.ok (self.owners[key]?).isSome, { self with owners := self.owners.erase key })

def ownerOf (self : Store) (key : String) : Option OwnerPrincipal := self.owners[key]?

def guardOf (self : Store) (key : String) : Option GuardRecord := self.accessGuards[key]?

/-- The key's version, zero when it has none. -/
def versionOf (self : Store) (key : String) : UInt64 := (self.versions[key]?).getD 0

def bumpVersion (self : Store) (key : String) (cap : Capability) :
    Except CapError UInt64 × Store :=
  match self.checkCap cap with
  | .error e => (.error e, self)
  | .ok () =>
    let next := Word64.saturatingAdd (self.versionOf key) 1
    (.ok next, { self with versions := self.versions.insert key next })

/-- Reinstate a persisted version. It never moves a counter back. -/
def restoreVersion (self : Store) (key : String) (version : UInt64) (cap : Capability) :
    Except CapError UInt64 × Store :=
  match self.checkCap cap with
  | .error e => (.error e, self)
  | .ok () =>
    let installed := max (self.versionOf key) version
    (.ok installed,
      if 0 < installed then { self with versions := self.versions.insert key installed } else self)

def setRefreshClaim (self : Store) (key : String) (claim : RefreshClaim) (cap : Capability) :
    Except CapError Unit × Store :=
  match self.checkCap cap with
  | .error e => (.error e, self)
  | .ok () => (.ok (), { self with refreshClaims := self.refreshClaims.insert key claim })

def refreshClaimOf (self : Store) (key : String) : Option RefreshClaim := self.refreshClaims[key]?

def clearRefreshClaim (self : Store) (key : String) (cap : Capability) :
    Except CapError Bool × Store :=
  match self.checkCap cap with
  | .error e => (.error e, self)
  | .ok () =>
    (.ok (self.refreshClaims[key]?).isSome,
      { self with refreshClaims := self.refreshClaims.erase key })

/-- A definition is entered where there is none, and an equal one is accepted. -/
theorem defineWithMeta_cases (self : Store) (key : String) (source : ValueSource) (ttl : Ttl)
    (valueMeta : ValueMeta) (sourceMeta : SourceMeta) :
    ((∃ e, self.defineWithMeta key source ttl valueMeta sourceMeta = (.error e, self)) ∧
        ∀ d, validateKeySyntax key = .ok () → Definition.new source ttl = .ok d →
          (self.definitions[key]?).isSome = true) ∨
      validateKeySyntax key = .ok () ∧ ∃ d, Definition.new source ttl = .ok d ∧
        (self.definitions[key]? = some ((d.withMeta valueMeta).withSourceMeta sourceMeta) ∧
            self.defineWithMeta key source ttl valueMeta sourceMeta = (.ok (), self) ∨
          self.definitions[key]? = none ∧
            self.defineWithMeta key source ttl valueMeta sourceMeta =
              (.ok (), { self with
                definitions := self.definitions.insert key
                  ((d.withMeta valueMeta).withSourceMeta sourceMeta) })) := by
  unfold defineWithMeta
  cases hkey : validateKeySyntax key with
  | error e => exact Or.inl ⟨⟨_, rfl⟩, fun d hvalid => by cases hvalid⟩
  | ok _ =>
    simp only
    cases hnew : Definition.new source ttl with
    | error e => exact Or.inl ⟨⟨_, rfl⟩, fun d _ hd => by cases hd⟩
    | ok d =>
      simp only
      cases hold : self.definitions[key]? with
      | none => exact Or.inr ⟨trivial, d, rfl, Or.inr ⟨rfl, rfl⟩⟩
      | some existing =>
        by_cases hsame : existing = (d.withMeta valueMeta).withSourceMeta sourceMeta
        · exact Or.inr ⟨trivial, d, rfl, Or.inl ⟨by rw [hsame], if_pos hsame⟩⟩
        · exact Or.inl ⟨⟨_, if_neg hsame⟩, fun _ _ _ => rfl⟩

theorem entries_defineWithMeta (self : Store) (key : String) (source : ValueSource) (ttl : Ttl)
    (valueMeta : ValueMeta) (sourceMeta : SourceMeta) :
    (self.defineWithMeta key source ttl valueMeta sourceMeta).2.entries = self.entries := by
  rcases self.defineWithMeta_cases key source ttl valueMeta sourceMeta with
    ⟨⟨e, h⟩, -⟩ | ⟨-, d, -, ⟨-, h⟩ | ⟨-, h⟩⟩
  all_goals rw [h]

/-- A set changes nothing but the entries. -/
theorem set_eq (self : Store) (key : String) (source : ValueSource) (value : Bytes) (ttl : Ttl)
    (cap : Capability) (now : Monotonic) :
    ∃ entries, (self.set key source value ttl cap now).2 = { self with entries := entries } := by
  unfold set
  cases self.checkCap cap with
  | error e => exact ⟨_, rfl⟩
  | ok _ => cases validateKeySyntax key <;> exact ⟨_, rfl⟩

end Store

def StoreBuilder.build (self : StoreBuilder) (token : BitVec 128) : StoreBundle where
  store := Store.newWithToken token self.failureBackoffDuration
  controlCap := ⟨token⟩
  authsockCap := ⟨token⟩
  otpCap := ⟨token⟩

end CacheWarden
