import CacheWarden.Store
import CacheWarden.Lib.Wire

/-!
# The graceful-restart snapshot

A running store is written out as one entry for each key that still carries
something, with every instant as wall-clock milliseconds, and a fresh process
rebuilds a store from those entries. The JSON payload of one entry is the work
of a serializer outside the repository, taken here as a pair of functions.
-/

set_option autoImplicit false

namespace CacheWarden

def formatVersion : ℕ := 6
def versionPreDek : ℕ := 3
def versionWithOwner : ℕ := 5
def minSupportedVersion : ℕ := 1
def versionPreGuard : ℕ := 1
def versionPreRefresh : ℕ := 2

def versionIsSupported (v : ℕ) : Bool := minSupportedVersion ≤ v && v ≤ formatVersion

/-- `b"CWSNAP01"`. -/
def snapshotMagic : Bytes := [0x43, 0x57, 0x53, 0x4E, 0x41, 0x50, 0x30, 0x31]

inductive SnapshotSource where
  | static
  | command (argv : List String) (cwd : Option OsPath) (env : KeyMap String)
  deriving DecidableEq

def SnapshotSource.fromValueSource : ValueSource → SnapshotSource
  | .static => .static
  | .command argv cwd env => .command argv cwd env

def SnapshotSource.intoValueSource : SnapshotSource → ValueSource
  | .static => .static
  | .command argv cwd env => .command argv cwd env

@[simp] theorem SnapshotSource.into_from (source : ValueSource) :
    (SnapshotSource.fromValueSource source).intoValueSource = source := by
  cases source <;> rfl

structure SnapshotValue where
  source : SnapshotSource
  secret : Bytes
  softTtlMs : Option UInt64
  hardTtlMs : Option UInt64
  loadedAtEpochMs : UInt64
  extendedAtEpochMs : UInt64
  pinDeadlineEpochMs : Option UInt64
  deriving DecidableEq

structure SnapshotDefinition where
  source : SnapshotSource
  softTtlMs : Option UInt64
  hardTtlMs : Option UInt64
  valueMetaType : Option String
  valueMetaParams : KeyMap String
  sourceMetaKind : Option String
  sourceMetaFields : KeyMap String
  deriving DecidableEq

structure SnapshotRefreshClaim where
  token : String
  claimedAtEpochMs : UInt64
  expiresAtEpochMs : UInt64
  deriving DecidableEq

structure SnapshotFailure where
  failedAtEpochMs : UInt64
  retryAfterMs : UInt64
  deriving DecidableEq

inductive SnapshotDeclaredAncestor where
  | sameShell (shellName : String)
  | named (name : String)
  deriving DecidableEq

structure SnapshotPinnedProcess where
  pid : UInt32
  startTimeUs : Option UInt64
  uniqueId : Option UInt64
  path : OsPath
  name : String
  deriving DecidableEq

inductive SnapshotConstraint where
  | sameUser
  | sameAncestor (declared : SnapshotDeclaredAncestor) (pinned : SnapshotPinnedProcess)
  | command (name : String)
  deriving DecidableEq

structure SnapshotGuard where
  constraints : List SnapshotConstraint
  setterEuid : UInt32
  setterRuid : UInt32
  deriving DecidableEq

structure SnapshotEntry where
  key : String
  value : Option SnapshotValue
  definition : Option SnapshotDefinition
  failure : Option SnapshotFailure
  guard : Option SnapshotGuard
  owner : Option OwnerPrincipal
  version : Option UInt64
  refreshClaim : Option SnapshotRefreshClaim
  deriving DecidableEq

structure StoreSnapshot where
  formatVersion : ℕ
  entries : List SnapshotEntry
  deriving DecidableEq

structure SerdeError where
  message : String
  deriving DecidableEq

inductive ExportError where
  | capMismatch
  | tooManyEntries (count : ℕ)
  | entryTooLarge (key : String)
  | serialize (e : SerdeError)
  deriving DecidableEq

inductive ImportError where
  | truncated
  | badMagic
  | unsupportedVersion (got supported : ℕ)
  | malformedTtl (key : String)
  | malformedDefinition (key : String)
  | invalidKey (key : String)
  | duplicateKey (key : String)
  | deserialize (e : SerdeError)
  deriving DecidableEq

/-- `serde_json` on the snapshot types. -/
structure Serde where
  toVec : SnapshotEntry → Except SerdeError Bytes
  fromSlice : Bytes → Except SerdeError SnapshotEntry

/-- Every one of the entries serializes, and reads back as itself. -/
def Serde.Lossless (serde : Serde) (entries : List SnapshotEntry) : Prop :=
  ∀ e ∈ entries, ∃ payload, serde.toVec e = .ok payload ∧ serde.fromSlice payload = .ok e

/-- `Duration::as_micros` narrowed by a bare cast. -/
def microsTruncatingU64 (d : Duration) : UInt64 := UInt64.ofNat (d.nanos / 1000)

def fromMicros (micros : UInt64) : Duration :=
  ⟨1000 * micros.toNat, by have := Word64.toNat_lt micros; omega⟩

def guardRecordToSnapshot (record : GuardRecord) : SnapshotGuard where
  constraints := record.constraints.map fun
    | .sameUser => .sameUser
    | .sameAncestor declared pinned =>
      .sameAncestor
        (match declared with
          | .sameShell shellName => .sameShell shellName
          | .named name => .named name)
        { pid := pinned.pid
          startTimeUs := pinned.startTime.map microsTruncatingU64
          uniqueId := pinned.uniqueId
          path := pinned.path
          name := pinned.name }
    | .command name => .command name
  setterEuid := record.setter.euid
  setterRuid := record.setter.ruid

def snapshotToGuardRecord (s : SnapshotGuard) : GuardRecord where
  constraints := s.constraints.map fun
    | .sameUser => .sameUser
    | .sameAncestor declared pinned =>
      .sameAncestor
        (match declared with
          | .sameShell shellName => .sameShell shellName
          | .named name => .named name)
        { pid := pinned.pid
          startTime := pinned.startTimeUs.map fromMicros
          uniqueId := pinned.uniqueId
          path := pinned.path
          name := pinned.name }
    | .command name => .command name
  setter := ⟨s.setterEuid, s.setterRuid⟩

def refreshClaimToSnapshot (c : RefreshClaim) : SnapshotRefreshClaim :=
  ⟨c.token, c.claimedAtEpochMs, c.expiresAtEpochMs⟩

def snapshotToRefreshClaim (c : SnapshotRefreshClaim) : RefreshClaim :=
  ⟨c.token, c.claimedAtEpochMs, c.expiresAtEpochMs⟩

namespace StoreSnapshot

/-- The wire version steps up only as far as the content requires. -/
def fromEntries (entries : List SnapshotEntry) : StoreSnapshot :=
  let anyRefresh := entries.any fun e => e.version.isSome || e.refreshClaim.isSome
  let anyGuarded := entries.any fun e => e.guard.isSome
  let anyOwned := entries.any fun e => e.owner.isSome
  { formatVersion :=
      if anyOwned then versionWithOwner
      else if anyRefresh then versionPreDek
      else if anyGuarded then versionPreRefresh
      else versionPreGuard
    entries := entries }

def encodeFrames (serde : Serde) : List SnapshotEntry → Except ExportError Bytes
  | [] => .ok []
  | entry :: rest =>
    match serde.toVec entry with
    | .error e => .error (.serialize e)
    | .ok payload =>
      if payload.length < 2 ^ 32 then
        match encodeFrames serde rest with
        | .error e => .error e
        | .ok tail => .ok (Wire.beBytes 4 payload.length ++ payload ++ tail)
      else .error (.entryTooLarge entry.key)

def toBytes (serde : Serde) (self : StoreSnapshot) : Except ExportError Bytes :=
  if self.entries.length < 2 ^ 32 then
    match encodeFrames serde self.entries with
    | .error e => .error e
    | .ok frames =>
      .ok (snapshotMagic ++ Wire.beBytes 4 self.formatVersion ++
        Wire.beBytes 4 self.entries.length ++ frames)
  else .error (.tooManyEntries self.entries.length)

def decodeFrames (serde : Serde) : ℕ → Bytes → Except ImportError (List SnapshotEntry)
  | 0, _ => .ok []
  | count + 1, cursor =>
    match Wire.take 4 cursor with
    | none => .error .truncated
    | some (lenBytes, cursor) =>
      match Wire.take (Wire.ofBe lenBytes) cursor with
      | none => .error .truncated
      | some (payload, cursor) =>
        match serde.fromSlice payload with
        | .error e => .error (.deserialize e)
        | .ok entry =>
          match decodeFrames serde count cursor with
          | .error e => .error e
          | .ok entries => .ok (entry :: entries)

def fromBytes (serde : Serde) (bytes : Bytes) : Except ImportError StoreSnapshot :=
  match Wire.take 8 bytes with
  | none => .error .truncated
  | some (magic, cursor) =>
    if magic ≠ snapshotMagic then .error .badMagic
    else
      match Wire.take 4 cursor with
      | none => .error .truncated
      | some (version, cursor) =>
        if !versionIsSupported (Wire.ofBe version) then
          .error (.unsupportedVersion (Wire.ofBe version) CacheWarden.formatVersion)
        else
          match Wire.take 4 cursor with
          | none => .error .truncated
          | some (count, cursor) =>
            match decodeFrames serde (Wire.ofBe count) cursor with
            | .error e => .error e
            | .ok entries => .ok ⟨Wire.ofBe version, entries⟩

end StoreSnapshot

namespace Store

/-- A value entry as the snapshot carries it; a logically expired one is left
out even where its bytes are still in memory. -/
def exportValue (nowMono : Monotonic) (wall : UInt64) (entry : CacheEntry) (now : Monotonic) :
    Option SnapshotValue :=
  if entry.state now = .hardExpired then none
  else
    entry.value.map fun secret =>
      { source := SnapshotSource.fromValueSource entry.source
        secret := secret
        softTtlMs := entry.ttl.soft.map millisTruncatingU64
        hardTtlMs := entry.ttl.hard.map millisTruncatingU64
        loadedAtEpochMs := monotonicToEpochMs nowMono wall entry.loadedAt
        extendedAtEpochMs := monotonicToEpochMs nowMono wall entry.extendedAt
        pinDeadlineEpochMs := entry.pinDeadline.map (monotonicToEpochMs nowMono wall) }

def exportDefinition (d : Definition) : SnapshotDefinition where
  source := SnapshotSource.fromValueSource d.source
  softTtlMs := d.ttl.soft.map millisTruncatingU64
  hardTtlMs := d.ttl.hard.map millisTruncatingU64
  valueMetaType := d.valueMeta.typeLabel
  valueMetaParams := d.valueMeta.params
  sourceMetaKind := d.sourceMeta.kind
  sourceMetaFields := d.sourceMeta.fields

def exportFailure (nowMono : Monotonic) (wall : UInt64) (record : FailureRecord) :
    SnapshotFailure where
  failedAtEpochMs := monotonicToEpochMs nowMono wall record.failedAt
  retryAfterMs := millisTruncatingU64 record.retryAfter

/-- Everything the snapshot says about one key, `now` being the reading its
value is judged at. -/
def exportKey (self : Store) (nowMono : Monotonic) (wall : UInt64) (now : Monotonic)
    (key : String) : SnapshotEntry :=
  let value := self.entries[key]?.bind (exportValue nowMono wall · now)
  { key := key
    value := value
    definition := self.definitions[key]?.map exportDefinition
    failure := self.failureBackoffs[key]?.map (exportFailure nowMono wall)
    guard := if value.isSome then self.accessGuards[key]?.map guardRecordToSnapshot else none
    owner := self.owners[key]?
    version := self.versions[key]?.filter (0 < ·)
    refreshClaim :=
      if value.isSome then self.refreshClaims[key]?.map refreshClaimToSnapshot else none }

/-- The skip test of the export loop. It does not look at the owner. -/
def skipped (e : SnapshotEntry) : Bool :=
  e.value.isNone && e.definition.isNone && e.failure.isNone && e.guard.isNone && e.version.isNone

/-- The keys the export visits: those of three of the seven maps. -/
def exportKeys (self : Store) : List String :=
  KeyMap.sortDedup (self.entries.keys ++ self.definitions.keys ++ self.failureBackoffs.keys)

def exportSnapshot (self : Store) (cap : Capability) (clock : Clock) (wall : UInt64) :
    Except ExportError StoreSnapshot :=
  match self.checkCap cap with
  | .error _ => .error .capMismatch
  | .ok () =>
    let visited := self.exportKeys.zipIdx.map fun (key, i) =>
      self.exportKey (clock.now 0) wall (clock.now (i + 1)) key
    .ok (StoreSnapshot.fromEntries (visited.filter (!skipped ·)))

def importTtl (key : String) (softMs hardMs : Option UInt64) : Except ImportError Ttl :=
  match Ttl.new (softMs.map Duration.fromMillis) (hardMs.map Duration.fromMillis) with
  | .error _ => .error (.malformedTtl key)
  | .ok ttl => .ok ttl

def importValue (nowMono : Monotonic) (wall : UInt64) (key : String) (v : SnapshotValue) :
    Except ImportError CacheEntry :=
  match importTtl key v.softTtlMs v.hardTtlMs with
  | .error e => .error e
  | .ok ttl =>
    let loadedAt := epochMsToMonotonicTtlBasis nowMono wall v.loadedAtEpochMs
    let extendedAt := epochMsToMonotonicTtlBasis nowMono wall v.extendedAtEpochMs
    if extendedAt < loadedAt then .error (.malformedTtl key)
    else
      .ok (CacheEntry.fromParts v.source.intoValueSource ttl v.secret loadedAt extendedAt
        (v.pinDeadlineEpochMs.map (epochMsToMonotonic nowMono wall)))

def importDefinition (key : String) (d : SnapshotDefinition) : Except ImportError Definition :=
  match importTtl key d.softTtlMs d.hardTtlMs with
  | .error e => .error e
  | .ok ttl =>
    match Definition.new d.source.intoValueSource ttl with
    | .error _ => .error (.malformedDefinition key)
    | .ok definition =>
      .ok ((definition.withMeta ⟨d.valueMetaType, d.valueMetaParams⟩).withSourceMeta
        ⟨d.sourceMetaKind, d.sourceMetaFields⟩)

def importFailure (nowMono : Monotonic) (wall : UInt64) (f : SnapshotFailure) : FailureRecord where
  failedAt := epochMsToMonotonicForFailure nowMono wall f.failedAtEpochMs
  retryAfter := Duration.fromMillis f.retryAfterMs

/-- An optional part, imported when it is there. -/
def importOpt {α β : Type} (f : α → Except ImportError β) : Option α → Except ImportError (Option β)
  | none => .ok none
  | some a =>
    match f a with
    | .error e => .error e
    | .ok b => .ok (some b)

/-- Install what one entry carries. The guard and the claim go in only beside a
value; the owner and the version go in whatever survived. -/
def installEntry (self : Store) (nowMono : Monotonic) (wall : UInt64) (e : SnapshotEntry)
    (value : Option CacheEntry) (definition : Option Definition) : Store :=
  let entries := KeyMap.insertOpt self.entries e.key value
  let resident := (entries[e.key]?).isSome
  { self with
    entries := entries
    definitions := KeyMap.insertOpt self.definitions e.key definition
    failureBackoffs := KeyMap.insertOpt self.failureBackoffs e.key
      (e.failure.map (importFailure nowMono wall))
    accessGuards := KeyMap.insertOpt self.accessGuards e.key
      (if resident then e.guard.map snapshotToGuardRecord else none)
    owners := KeyMap.insertOpt self.owners e.key e.owner
    versions := KeyMap.insertOpt self.versions e.key (e.version.filter (0 < ·))
    refreshClaims := KeyMap.insertOpt self.refreshClaims e.key
      (if resident then e.refreshClaim.map snapshotToRefreshClaim else none) }

def importEntry (self : Store) (nowMono : Monotonic) (wall : UInt64) (seen : List String)
    (e : SnapshotEntry) : Except ImportError Store :=
  match validateKeySyntax e.key with
  | .error _ => .error (.invalidKey e.key)
  | .ok () =>
    if e.key ∈ seen then .error (.duplicateKey e.key)
    else
      match importOpt (importValue nowMono wall e.key) e.value with
      | .error err => .error err
      | .ok value =>
        match importOpt (importDefinition e.key) e.definition with
        | .error err => .error err
        | .ok definition => .ok (self.installEntry nowMono wall e value definition)

def importEntries (nowMono : Monotonic) (wall : UInt64) :
    Store → List String → List SnapshotEntry → Except ImportError Store
  | self, _, [] => .ok self
  | self, seen, e :: rest =>
    match self.importEntry nowMono wall seen e with
    | .error err => .error err
    | .ok store => importEntries nowMono wall store (e.key :: seen) rest

def importSnapshot (builder : StoreBuilder) (token : BitVec 128) (snapshot : StoreSnapshot)
    (nowMono : Monotonic) (wall : UInt64) : Except ImportError StoreBundle :=
  if !versionIsSupported snapshot.formatVersion then
    .error (.unsupportedVersion snapshot.formatVersion formatVersion)
  else
    let bundle := builder.build token
    match importEntries nowMono wall bundle.store [] snapshot.entries with
    | .error e => .error e
    | .ok store => .ok { bundle with store := store }

end Store

end CacheWarden
