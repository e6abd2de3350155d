import CacheWarden.Store

/-!
# The public-key registry of an agent socket

A registry takes the wire blob of a public key to the store key that holds its
private half. The base holds the local keys and is built once, when the socket
binds; each discovery lays the keys it found over a copy of the base and the
result replaces the live registry.
-/

set_option autoImplicit false

namespace CacheWarden

abbrev Blob := Bytes

/-- The key formats and signature schemes: what a private key's text and a
public key's text parse to, and the signature the key makes. -/
structure SshKeys where
  publicKeyBlobFromPem : Bytes → Option (Blob × Option String)
  publicKeyFromOpenssh : String → Option Blob
  sign : Bytes → Bytes → UInt32 → Option Bytes

inductive KeySource where
  | local
  | op (argv : List String) (softTtlSecs hardTtlSecs : Option UInt64)
  deriving DecidableEq

structure RegisteredKey where
  keyBlob : Blob
  comment : String
  kvKey : String
  source : KeySource
  deriving DecidableEq

structure Identity where
  keyBlob : Blob
  comment : String
  deriving DecidableEq

structure PublicKeyRegistry where
  byBlob : Std.ExtTreeMap Blob RegisteredKey

structure DiscoveredKey where
  itemId : String
  publicKey : String
  title : String
  deriving DecidableEq

structure AuthsockSource where
  opAccount : Option String
  softTtlSecs : Option UInt64
  hardTtlSecs : Option UInt64
  deriving DecidableEq

namespace PublicKeyRegistry

def new : PublicKeyRegistry := ⟨∅⟩

def lookup (self : PublicKeyRegistry) (keyBlob : Blob) : Option RegisteredKey :=
  self.byBlob[keyBlob]?

def allKeys (self : PublicKeyRegistry) : List RegisteredKey :=
  self.byBlob.keys.filterMap (self.byBlob[·]?)

def identities (self : PublicKeyRegistry) : List Identity :=
  self.allKeys.map fun k => ⟨k.keyBlob, k.comment⟩

def insert (self : PublicKeyRegistry) (key : RegisteredKey) : PublicKeyRegistry :=
  ⟨self.byBlob.insert key.keyBlob key⟩

/-- A private key under its public blob; `none` where the text is not a key. -/
def registerFromPem (self : PublicKeyRegistry) (ssh : SshKeys) (kvKey : String) (pem : Bytes) :
    Option PublicKeyRegistry :=
  (ssh.publicKeyBlobFromPem pem).map fun (keyBlob, comment) =>
    self.insert ⟨keyBlob, comment.getD kvKey, kvKey, .local⟩

def registerOpKey (self : PublicKeyRegistry) (ssh : SshKeys) (kvKey publicOpenssh comment : String)
    (source : KeySource) : Option PublicKeyRegistry :=
  (ssh.publicKeyFromOpenssh publicOpenssh).map fun keyBlob =>
    self.insert ⟨keyBlob, if comment.isEmpty then kvKey else comment, kvKey, source⟩

theorem lookup_insert (self : PublicKeyRegistry) (key : RegisteredKey) (b : Blob) :
    (self.insert key).lookup b = if key.keyBlob = b then some key else self.lookup b := by
  simp [lookup, insert, Std.ExtTreeMap.getElem?_insert]

theorem mem_allKeys {self : PublicKeyRegistry} {key : RegisteredKey} :
    key ∈ self.allKeys ↔ ∃ b, self.lookup b = some key := by
  simp only [allKeys, List.mem_filterMap]
  constructor
  · rintro ⟨b, -, hb⟩
    exact ⟨b, hb⟩
  · rintro ⟨b, hb⟩
    refine ⟨b, ?_, hb⟩
    rw [Std.ExtTreeMap.mem_keys, Std.ExtTreeMap.mem_iff_isSome_getElem?]
    exact Option.isSome_of_eq_some hb

end PublicKeyRegistry

/-- `build_registry`: the configured keys the store can still hand out, each
under the blob its value derives. -/
def buildRegistry (ssh : SshKeys) (keys : List String) (store : Store) (cap : Capability)
    (clock : Clock) : PublicKeyRegistry × Store :=
  go PublicKeyRegistry.new keys store clock
where
  go (registry : PublicKeyRegistry) : List String → Store → Clock → PublicKeyRegistry × Store
    | [], store, _ => (registry, store)
    | kvKey :: keys, store, clock =>
      let (read, store) := store.get kvKey cap (clock.now 0)
      match read with
      | .ok (some pem) =>
        go ((registry.registerFromPem ssh kvKey pem).getD registry) keys store (clock.after 1)
      | _ => go registry keys store (clock.after 1)

def opPrivateKeySubcommand : String := "__authsock-op-private-key"

def privateKeyArgv (exe itemId : String) (account : Option String) : List String :=
  [exe, opPrivateKeySubcommand, itemId] ++
    match account with
    | some a => ["--account", a]
    | none => []

/-- `OpKvKey::new`: the store key of an item, when its id can be a segment. -/
def opKvKey (itemId : String) : Option String :=
  if itemId.isEmpty || !itemId.toList.all isAsciiAlphanumeric then none
  else some ("authsock/op_" ++ itemId)

def registerOpKeys (ssh : SshKeys) (exe : String) (source : AuthsockSource) :
    List DiscoveredKey → PublicKeyRegistry → PublicKeyRegistry
  | [], registry => registry
  | key :: keys, registry =>
    match opKvKey key.itemId with
    | none => registerOpKeys ssh exe source keys registry
    | some kvKey =>
      let src := KeySource.op (privateKeyArgv exe key.itemId source.opAccount) source.softTtlSecs
        source.hardTtlSecs
      match registry.registerOpKey ssh kvKey key.publicKey key.title src with
      | some registry => registerOpKeys ssh exe source keys registry
      | none => registerOpKeys ssh exe source keys registry

def opRegistryFrom (ssh : SshKeys) (base : PublicKeyRegistry) (exe : Option String)
    (source : AuthsockSource) (keys : List DiscoveredKey) : PublicKeyRegistry :=
  match exe with
  | some exe => registerOpKeys ssh exe source keys base
  | none => base

end CacheWarden
