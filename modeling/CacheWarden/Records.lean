import CacheWarden.Entry
import CacheWarden.Key
import CacheWarden.Lib.Asking

/-!
# The records kept beside a value

Definitions, access guards, owner principals and refresh claims are plain data
to the core: it stores them, compares them and carries them, and leaves their
evaluation to the adapter. A definition is built from a command source only,
and carries that as a field.
-/

set_option autoImplicit false

namespace CacheWarden

structure ValueMeta where
  typeLabel : Option String
  params : KeyMap String
  deriving DecidableEq

def ValueMeta.new : ValueMeta := ⟨none, ∅⟩

structure SourceMeta where
  kind : Option String
  fields : KeyMap String
  deriving DecidableEq

def SourceMeta.new : SourceMeta := ⟨none, ∅⟩

inductive DefineError where
  | conflict
  | staticNotDefinable
  | invalidKey (e : InvalidKey)
  deriving DecidableEq

structure Definition where
  source : ValueSource
  ttl : Ttl
  valueMeta : ValueMeta
  sourceMeta : SourceMeta
  regenerable : source.isRegenerable = true
  deriving DecidableEq

namespace Definition

@[ext] theorem ext {a b : Definition} (hs : a.source = b.source) (ht : a.ttl = b.ttl)
    (hv : a.valueMeta = b.valueMeta) (hm : a.sourceMeta = b.sourceMeta) : a = b := by
  cases a
  cases b
  simp_all

def new (source : ValueSource) (ttl : Ttl) : Except DefineError Definition :=
  match h : source.isRegenerable with
  | true => .ok ⟨source, ttl, ValueMeta.new, SourceMeta.new, h⟩
  | false => .error .staticNotDefinable

def withMeta (self : Definition) (valueMeta : ValueMeta) : Definition :=
  { self with valueMeta := valueMeta }

def withSourceMeta (self : Definition) (sourceMeta : SourceMeta) : Definition :=
  { self with sourceMeta := sourceMeta }

theorem new_of_regenerable {source : ValueSource} (ttl : Ttl) (h : source.isRegenerable = true) :
    new source ttl = .ok ⟨source, ttl, ValueMeta.new, SourceMeta.new, h⟩ := by
  unfold new
  split
  · rfl
  · rename_i hf
    rw [h] at hf
    cases hf

end Definition

structure PinnedProcess where
  pid : UInt32
  startTime : Option Duration
  uniqueId : Option UInt64
  path : OsPath
  name : String
  deriving DecidableEq

inductive DeclaredAncestor where
  | sameShell (shellName : String)
  | named (name : String)
  deriving DecidableEq

inductive GuardConstraint where
  | sameUser
  | sameAncestor (declared : DeclaredAncestor) (pinned : PinnedProcess)
  | command (name : String)
  deriving DecidableEq

structure GuardSetter where
  euid : UInt32
  ruid : UInt32
  deriving DecidableEq

structure GuardRecord where
  constraints : List GuardConstraint
  setter : GuardSetter
  deriving DecidableEq

inductive SigningAnchor where
  | appleGeneric
  | apple
  deriving DecidableEq

namespace SigningAnchor

def parse (s : String) : Option SigningAnchor :=
  if s = "apple-generic" then some .appleGeneric
  else if s = "apple" then some .apple
  else none

def asStr : SigningAnchor → String
  | .appleGeneric => "apple-generic"
  | .apple => "apple"

end SigningAnchor

inductive OwnerDeclError where
  | unknownAnchor (anchor : String)
  | empty (field : String)
  | illegalCharacter (field : String) (ch : Char)
  | tooLong (field : String) (max : ℕ)
  deriving DecidableEq

structure OwnerPrincipal where
  anchor : SigningAnchor
  teamId : String
  identifier : String
  deriving DecidableEq

namespace OwnerPrincipal

def maxTeamId : ℕ := 64
def maxIdentifier : ℕ := 255

def isTeamIdChar (c : Char) : Bool := isAsciiAlphanumeric c

def isIdentifierChar (c : Char) : Bool :=
  isAsciiAlphanumeric c || c == '.' || c == '-' || c == '_'

def checkField (field value : String) (max : ℕ) (allowed : Char → Bool) :
    Except OwnerDeclError Unit :=
  if value.isEmpty then .error (.empty field)
  else if value.utf8ByteSize > max then .error (.tooLong field max)
  else
    match value.toList.find? fun c => !allowed c with
    | some ch => .error (.illegalCharacter field ch)
    | none => .ok ()

def declare (anchor teamId identifier : String) : Except OwnerDeclError OwnerPrincipal :=
  match SigningAnchor.parse anchor with
  | none => .error (.unknownAnchor anchor)
  | some a => do
    checkField "team id" teamId maxTeamId isTeamIdChar
    checkField "identifier" identifier maxIdentifier isIdentifierChar
    return ⟨a, teamId, identifier⟩

def summary (self : OwnerPrincipal) : String :=
  self.anchor.asStr ++ " team=" ++ self.teamId ++ " identifier=" ++ self.identifier

end OwnerPrincipal

structure RefreshClaim where
  token : String
  claimedAtEpochMs : UInt64
  expiresAtEpochMs : UInt64
  deriving DecidableEq

namespace RefreshClaim

/-- Exclusive at the boundary: a claim whose expiry is now has lapsed. -/
def isActiveAt (self : RefreshClaim) (nowEpochMs : UInt64) : Bool :=
  nowEpochMs < self.expiresAtEpochMs

def remainingMs (self : RefreshClaim) (nowEpochMs : UInt64) : UInt64 :=
  Word64.saturatingSub self.expiresAtEpochMs nowEpochMs

end RefreshClaim

structure Capability where
  token : BitVec 128
  deriving DecidableEq

inductive CapError where
  | keyMismatch
  | unknown
  deriving DecidableEq

/-- Facts about one process of a requester's ancestry. -/
structure ProcessInfo where
  pid : UInt32
  ppid : Option UInt32
  path : Option OsPath
  startTime : Option Duration
  deriving DecidableEq

inductive AuthOperation where
  | extend
  | regenerate
  | pin
  deriving DecidableEq

structure AuthContext where
  key : String
  operation : AuthOperation
  requester : Option (List ProcessInfo)
  deriving DecidableEq

inductive AuthError where
  | denied
  | unavailable (message : String)
  deriving DecidableEq

/-- The re-authentication boundary: the answer it gives to one prompt. -/
abbrev Authenticator := AuthContext → Except AuthError Unit

inductive RunError where
  | spawnFailed (program reason : String)
  | nonZeroExit (code : Option ℤ) (stderrLen : ℕ)
  | emptyOutput
  | noProgram
  | timeout (elapsed : Duration)
  deriving DecidableEq

/-- The source runner: what one run of a command produces. -/
abbrev SourceRunner :=
  List String → Option OsPath → KeyMap String → Except RunError Bytes

/-- One run of a source command, or one prompt of the authenticator. -/
inductive ExternalCall where
  | run (argv : List String) (cwd : Option OsPath) (env : KeyMap String)
  | prompt (ctx : AuthContext)
  deriving DecidableEq

def ExternalCall.isRun : ExternalCall → Bool
  | .run .. => true
  | .prompt _ => false

abbrev ExternalCall.Answer : ExternalCall → Type
  | .run .. => Except RunError Bytes
  | .prompt _ => Except AuthError Unit

/-- The answers of a runner and an authenticator. -/
def outside (runner : SourceRunner) (auth : Authenticator) : ∀ call : ExternalCall, call.Answer
  | .run argv cwd env => runner argv cwd env
  | .prompt ctx => auth ctx

@[simp] theorem outside_run (runner : SourceRunner) (auth : Authenticator) (argv : List String)
    (cwd : Option OsPath) (env : KeyMap String) :
    outside runner auth (.run argv cwd env) = runner argv cwd env := rfl

@[simp] theorem outside_prompt (runner : SourceRunner) (auth : Authenticator) (ctx : AuthContext) :
    outside runner auth (.prompt ctx) = auth ctx := rfl

/-- A computation that prompts, and one that runs commands as well. -/
abbrev Prompting := Asking fun _ : AuthContext => Except AuthError Unit
abbrev Fetching := Asking ExternalCall.Answer

/-- A fetch failure and how long it suppresses the next fetch. -/
structure FailureRecord where
  failedAt : Monotonic
  retryAfter : Duration
  deriving DecidableEq

end CacheWarden
