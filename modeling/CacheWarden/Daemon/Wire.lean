import CacheWarden.Daemon.Guard
import CacheWarden.Store
import CacheWarden.Vault.Crypto

/-!
# Requests and responses of the control socket

A response is a payload or an error. An error's text is kept in pieces: what is
literal in the source, and the values it prints between.
-/

set_option autoImplicit false

namespace CacheWarden

namespace Daemon

inductive ErrorKind where
  | badRequest
  | notFound
  | authFailed
  | notRegenerable
  | hardExpired
  | upstreamFailed
  | internal
  | casMismatch
  | alreadyClaimed
  | claimTokenMismatch
  | vaultLocked
  | vaultNotInitialized
  | restartAborted
  deriving DecidableEq

inductive Piece where
  | text (s : String)
  | quoted (s : String)
  | number (n : ℕ)
  | seconds (d : Duration)
  | invalidKey (e : InvalidKey)
  | ttl (e : TtlError)
  | auth (e : AuthError)
  | run (e : RunError)
  | ownerDecl (e : OwnerDeclError)
  | vault (e : Vault.VaultError)
  deriving DecidableEq

structure WireError where
  kind : ErrorKind
  message : List Piece
  currentVersion : Option UInt64
  claimExpiresInSecs : Option UInt64
  deriving DecidableEq

inductive OkPayload where
  | pong
  | get (value : Bytes)
  | getVerified (state : String)
  | deleted (deleted : Bool)
  | set (guardApplied : List String) (version : Option UInt64) (ownerApplied : Option String)
  | defined
  | pinned (pinRemainingSecs : UInt64)
  | unpinned
  | claimed (version : UInt64) (token : String) (claimExpiresInSecs : UInt64)
  | unclaimed
  | ownerCleared
  | vaultInitialized (vaultId : Vault.VaultId) (recoveryCode : Vault.Key)
  | vaultUnlocked (entriesRestored : ℕ)
  | vaultLocked
  deriving DecidableEq

inductive Response where
  | ok (payload : OkPayload)
  | err (error : WireError)
  deriving DecidableEq

namespace Response

def error (kind : ErrorKind) (message : List Piece) : Response := .err ⟨kind, message, none, none⟩

def casMismatch (current : UInt64) : Response :=
  let message : List Piece :=
    if current = 0 then
      [.text "the entry does not exist; re-read it and retry with the version you find"]
    else
      [.text "the entry changed since it was read (it is now at version ", .number current.toNat,
        .text "); re-read it and retry"]
  .err ⟨.casMismatch, message, some current, none⟩

def alreadyClaimed (claimExpiresInSecs : UInt64) : Response :=
  .err ⟨.alreadyClaimed,
    [.text "another refresh is already in progress for this key (for up to ",
      .number claimExpiresInSecs.toNat,
      .text "s); wait for the new value rather than refreshing it again"],
    none, some claimExpiresInSecs⟩

end Response

structure ValueMetaWire where
  typeLabel : Option String
  params : KeyMap String
  deriving DecidableEq

def metaFromWire (m : ValueMetaWire) : ValueMeta :=
  match m.typeLabel with
  | none => if m.params.isEmpty then ValueMeta.new else ⟨some "", m.params⟩
  | some label => ⟨some label, m.params⟩

structure CommandSpecWire where
  argv : List String
  cwd : Option String
  env : KeyMap String
  deriving DecidableEq

structure OpSpecWire where
  uri : String
  account : Option String
  deriving DecidableEq

inductive SourceSpecWire where
  | command (spec : CommandSpecWire)
  | op (spec : OpSpecWire)
  deriving DecidableEq

/-- The characters of the Unicode property `White_Space`. -/
def isWhitespace (c : Char) : Bool :=
  (9 ≤ c.toNat && c.toNat ≤ 13) || c.toNat = 32 || c.toNat = 0x85 || c.toNat = 0xA0 ||
    c.toNat = 0x1680 || (0x2000 ≤ c.toNat && c.toNat ≤ 0x200A) || c.toNat = 0x2028 ||
    c.toNat = 0x2029 || c.toNat = 0x202F || c.toNat = 0x205F || c.toNat = 0x3000

namespace SourceSpecWire

def validate : SourceSpecWire → Except (List Piece) Unit
  | .command spec =>
    if spec.argv.isEmpty then
      .error [.text "source = \"command\" requires a non-empty `command.argv`"]
    else .ok ()
  | .op spec =>
    if spec.uri.toList.all isWhitespace then
      .error [.text "source = \"op\" requires a non-empty `op.uri`"]
    else if !"op://".toList.isPrefixOf spec.uri.toList then
      .error [.text "source = \"op\": `op.uri` must be an op:// reference (got ", .quoted spec.uri,
        .text ")"]
    else .ok ()

def lower : SourceSpecWire → ValueSource
  | .command spec => .command spec.argv (spec.cwd.map OsPath.utf8) spec.env
  | .op spec =>
    let account :=
      match spec.account with
      | some account => ["--account", account]
      | none => []
    .command (["op"] ++ account ++ ["read", spec.uri]) none ∅

def toSourceMeta : SourceSpecWire → SourceMeta
  | .command spec =>
    let fields := (∅ : KeyMap String).insert "argv" ("\n".intercalate spec.argv)
    let fields := KeyMap.insertOpt fields "cwd" spec.cwd
    let rendered := "\n".intercalate (spec.env.toList.map fun p => p.1 ++ "=" ++ p.2)
    ⟨some "command", if spec.env.isEmpty then fields else fields.insert "env" rendered⟩
  | .op spec => ⟨some "op", KeyMap.insertOpt ((∅ : KeyMap String).insert "uri" spec.uri) "account" spec.account⟩

/-- A typed source always lowers to a command. -/
theorem lower_regenerable (source : SourceSpecWire) : source.lower.isRegenerable = true := by
  cases source <;> rfl

end SourceSpecWire

structure SignedByWire where
  anchor : String
  teamId : String
  identifier : String
  deriving DecidableEq

/-- A value on the wire, `none` where its text is not valid base64. -/
inductive SetSource where
  | static (value : Option Bytes)
  deriving DecidableEq

structure SetRequest where
  key : String
  source : SetSource
  softTtlSecs : Option UInt64
  hardTtlSecs : Option UInt64
  guardConstraints : List GuardConstraintWire
  expectedVersion : Option UInt64
  claimToken : Option String
  persist : Option Bool
  signedBy : Option SignedByWire
  deriving DecidableEq

/-- The requests the control socket dispatches. A recovery code is absent where
the caller asked for a passkey, and `some none` where its text does not parse. -/
inductive Request where
  | ping
  | kvSet (request : SetRequest)
  | kvDefine (key : String) (source : SourceSpecWire) (softTtlSecs hardTtlSecs : Option UInt64)
      (valueMeta : ValueMetaWire)
  | kvGet (key : String) (dryRun : Bool)
  | kvDel (key : String) (withDefine : Bool)
  | kvPin (key : String) (durationSecs : UInt64)
  | kvUnpin (key : String)
  | kvClaim (key : String) (expectedVersion durationSecs : UInt64)
  | kvUnclaim (key claimToken : String)
  | kvOwnerClear (key : String)
  | vaultInit
  | vaultUnlock (recoveryCode : Option (Option Vault.Key))
  | vaultLock
  | vaultAddPasskey
  | restartGraceful
  deriving DecidableEq

end Daemon

end CacheWarden
