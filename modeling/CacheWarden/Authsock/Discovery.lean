import CacheWarden.Authsock.Registry
import CacheWarden.Lib.Transition

/-!
# Discovery over a base of local keys

A refresh lays the discovered keys over a copy of the base, keyed by the blob
their public halves encode to. A discovered key whose blob the base already
holds takes the local key's place, with its own store key and its own fetch
command; where no blob is in both, the base is untouched.
-/

set_option autoImplicit false

namespace CacheWarden

open Transition

/-- The registry entry a discovered key becomes, unless its item id or its
public key is unusable. -/
def opEntry (ssh : SshKeys) (exe : String) (source : AuthsockSource) (key : DiscoveredKey) :
    Option RegisteredKey :=
  (opKvKey key.itemId).bind fun kvKey =>
    (ssh.publicKeyFromOpenssh key.publicKey).map fun keyBlob =>
      ⟨keyBlob, if key.title.isEmpty then kvKey else key.title, kvKey,
        .op (privateKeyArgv exe key.itemId source.opAccount) source.softTtlSecs
          source.hardTtlSecs⟩

section RegisterOpKeys

variable (ssh : SshKeys) (exe : String) (source : AuthsockSource)

theorem registerOpKeys_eq_foldl (keys : List DiscoveredKey) (registry : PublicKeyRegistry) :
    registerOpKeys ssh exe source keys registry =
      (keys.filterMap (opEntry ssh exe source)).foldl PublicKeyRegistry.insert registry := by
  induction keys generalizing registry with
  | nil => rfl
  | cons key keys ih =>
    rcases hid : opKvKey key.itemId with _ | kvKey
    · simp [registerOpKeys, opEntry, hid, ih]
    · rcases hkey : ssh.publicKeyFromOpenssh key.publicKey with _ | keyBlob
      · simp [registerOpKeys, opEntry, hid, hkey, PublicKeyRegistry.registerOpKey, ih]
      · simp [registerOpKeys, opEntry, hid, hkey, PublicKeyRegistry.registerOpKey, ih]

end RegisterOpKeys

/-- The last of the entries laid over a registry under this blob. -/
def overlaid (entries : List RegisteredKey) (b : Blob) : Option RegisteredKey :=
  entries.reverse.find? (·.keyBlob = b)

theorem overlaid_mem {entries : List RegisteredKey} {b : Blob} {key : RegisteredKey}
    (h : overlaid entries b = some key) : key ∈ entries ∧ key.keyBlob = b := by
  have hmem := List.mem_of_find?_eq_some h
  have hblob := List.find?_some h
  exact ⟨List.mem_reverse.mp hmem, by simpa using hblob⟩

theorem overlaid_eq_none {entries : List RegisteredKey} {b : Blob} :
    overlaid entries b = none ↔ ∀ key ∈ entries, key.keyBlob ≠ b := by
  simp [overlaid]

theorem lookup_foldl_insert (entries : List RegisteredKey) (registry : PublicKeyRegistry)
    (b : Blob) :
    (entries.foldl PublicKeyRegistry.insert registry).lookup b =
      (overlaid entries b).or (registry.lookup b) := by
  induction entries generalizing registry with
  | nil => rfl
  | cons entry entries ih =>
    rw [List.foldl_cons, ih, PublicKeyRegistry.lookup_insert]
    unfold overlaid
    rw [List.reverse_cons, List.find?_append]
    by_cases hb : entry.keyBlob = b
    · simp [hb]
    · simp [hb]

/-- What a refresh serves: the last usable discovered key under a blob, and the
base where there is none. -/
theorem lookup_opRegistryFrom (ssh : SshKeys) (base : PublicKeyRegistry) (exe : String)
    (source : AuthsockSource) (keys : List DiscoveredKey) (b : Blob) :
    (opRegistryFrom ssh base (some exe) source keys).lookup b =
      (overlaid (keys.filterMap (opEntry ssh exe source)) b).or (base.lookup b) := by
  rw [opRegistryFrom, registerOpKeys_eq_foldl, lookup_foldl_insert]

/-- A socket whose live registry a discovery replaces. -/
structure DiscoveryTarget where
  base : PublicKeyRegistry
  live : PublicKeyRegistry

/-- One discovery result and the settings it is applied with. -/
structure Refresh where
  exe : Option String
  source : AuthsockSource
  keys : List DiscoveredKey

namespace Refresh

/-- The entries this result lays over the base. -/
def entries (ssh : SshKeys) (self : Refresh) : List RegisteredKey :=
  match self.exe with
  | some exe => self.keys.filterMap (opEntry ssh exe self.source)
  | none => []

/-- The keys of this result that its registry serves: the last under each blob. -/
def Serves (ssh : SshKeys) (self : Refresh) (entry : RegisteredKey) : Prop :=
  overlaid (self.entries ssh) entry.keyBlob = some entry

/-- No usable key of this result encodes to a blob of the base. -/
def AvoidsBase (ssh : SshKeys) (base : PublicKeyRegistry) (self : Refresh) : Prop :=
  self.exe.isSome → ∀ key ∈ self.keys, ∀ b, (opKvKey key.itemId).isSome →
    ssh.publicKeyFromOpenssh key.publicKey = some b → base.lookup b = none

end Refresh

namespace DiscoveryTarget

/-- `apply_discovery`, as far as it concerns the registries. -/
def applyDiscovery (ssh : SshKeys) (self : DiscoveryTarget) (r : Refresh) : DiscoveryTarget :=
  { self with live := opRegistryFrom ssh self.base r.exe r.source r.keys }

end DiscoveryTarget

theorem lookup_applyDiscovery (ssh : SshKeys) (target : DiscoveryTarget) (r : Refresh) (b : Blob) :
    (target.applyDiscovery ssh r).live.lookup b =
      (overlaid (r.entries ssh) b).or (target.base.lookup b) := by
  obtain ⟨exe, source, keys⟩ := r
  cases exe with
  | none => rfl
  | some exe => exact lookup_opRegistryFrom ssh target.base exe source keys b

theorem mem_entries {ssh : SshKeys} {r : Refresh} {entry : RegisteredKey} :
    entry ∈ r.entries ssh ↔
      ∃ exe, r.exe = some exe ∧ ∃ key ∈ r.keys, opEntry ssh exe r.source key = some entry := by
  obtain ⟨exe, source, keys⟩ := r
  cases exe with
  | none => simp [Refresh.entries]
  | some exe => simp [Refresh.entries]

theorem opEntry_some {ssh : SshKeys} {exe : String} {source : AuthsockSource} {key : DiscoveredKey}
    {entry : RegisteredKey} (h : opEntry ssh exe source key = some entry) :
    (opKvKey key.itemId).isSome ∧ ssh.publicKeyFromOpenssh key.publicKey = some entry.keyBlob ∧
      entry.source ≠ .local := by
  unfold opEntry at h
  obtain ⟨kvKey, hid, h⟩ := Option.bind_eq_some_iff.mp h
  obtain ⟨keyBlob, hkey, rfl⟩ := Option.map_eq_some_iff.mp h
  exact ⟨Option.isSome_of_eq_some hid, hkey, fun hsource => by cases hsource⟩

/-- An item id can be read back from its store key. -/
theorem opKvKey_injective {itemId itemId' kvKey : String} (h : opKvKey itemId = some kvKey)
    (h' : opKvKey itemId' = some kvKey) : itemId = itemId' := by
  unfold opKvKey at h h'
  split at h
  · cases h
  · split at h'
    · cases h'
    · have heq := (Option.some.inj h).trans (Option.some.inj h').symm
      have hlist := congrArg String.toList heq
      simp only [String.toList_append, List.append_cancel_left_eq] at hlist
      exact String.toList_injective hlist

theorem validKey_of_opKvKey {itemId kvKey : String} (h : opKvKey itemId = some kvKey) :
    ValidKey kvKey := by
  unfold opKvKey at h
  split at h
  · cases h
  · rename_i hok
    cases h
    simp only [Bool.or_eq_true, Bool.not_eq_true', not_or, Bool.not_eq_false] at hok
    have hid : isIdentifierSegment ("op_".toList ++ itemId.toList) = true := by
      simp only [isIdentifierSegment, Bool.and_eq_true, List.all_append]
      refine ⟨rfl, by decide, ?_⟩
      rw [List.all_eq_true]
      intro c hc
      rw [Bool.or_eq_true]
      exact Or.inl (List.all_eq_true.mp hok.2 c hc)
    have htext : ("authsock/op_" ++ itemId).toList =
        "authsock".toList ++ '/' :: ("op_".toList ++ itemId.toList) := by
      rw [String.toList_append]
      rfl
    unfold ValidKey validateKeySyntax
    rw [htext, splitSlash_append (by decide), splitSlash_of_not_mem (slash_not_mem_of_identifier hid)]
    simp only [segmentsOk, hid, Bool.and_true]
    rfl

theorem opEntry_of_usable {ssh : SshKeys} (exe : String) (source : AuthsockSource)
    {key : DiscoveredKey} {b : Blob} (hid : (opKvKey key.itemId).isSome)
    (hkey : ssh.publicKeyFromOpenssh key.publicKey = some b) :
    ∃ entry, opEntry ssh exe source key = some entry ∧ entry.keyBlob = b := by
  obtain ⟨kvKey, hkv⟩ := Option.isSome_iff_exists.mp hid
  unfold opEntry
  rw [hkv, hkey, Option.bind_some, Option.map_some]
  exact ⟨_, rfl, rfl⟩

theorem avoidsBase_iff {ssh : SshKeys} {base : PublicKeyRegistry} {r : Refresh} :
    r.AvoidsBase ssh base ↔ ∀ entry ∈ r.entries ssh, base.lookup entry.keyBlob = none := by
  constructor
  · intro h entry hentry
    obtain ⟨exe, hexe, key, hkey, hop⟩ := mem_entries.mp hentry
    obtain ⟨hid, hblob, -⟩ := opEntry_some hop
    exact h (by rw [hexe]; rfl) key hkey _ hid hblob
  · intro h hexe key hkey b hid hblob
    obtain ⟨exe, hexe⟩ := Option.isSome_iff_exists.mp hexe
    obtain ⟨entry, hop, rfl⟩ := opEntry_of_usable exe r.source hid hblob
    exact h entry (mem_entries.mpr ⟨exe, hexe, key, hkey, hop⟩)

/-- Every entry of the base is a local key under its own blob. -/
def LocalKeys (base : PublicKeyRegistry) : Prop :=
  ∀ b entry, base.lookup b = some entry → entry.source = .local ∧ entry.keyBlob = b

theorem localKeys_new : LocalKeys PublicKeyRegistry.new := by
  intro b entry h
  simp [PublicKeyRegistry.new, PublicKeyRegistry.lookup] at h

theorem localKeys_registerFromPem {ssh : SshKeys} {registry : PublicKeyRegistry}
    (h : LocalKeys registry) (kvKey : String) (pem : Bytes) :
    LocalKeys ((registry.registerFromPem ssh kvKey pem).getD registry) := by
  intro b entry hb
  unfold PublicKeyRegistry.registerFromPem at hb
  rcases hpem : ssh.publicKeyBlobFromPem pem with _ | ⟨keyBlob, comment⟩
  · exact h b entry (by simpa [hpem] using hb)
  · simp only [hpem, Option.map_some, Option.getD_some, PublicKeyRegistry.lookup_insert] at hb
    split at hb
    · cases hb
      exact ⟨rfl, by assumption⟩
    · exact h b entry hb

theorem localKeys_buildRegistry (ssh : SshKeys) (keys : List String) (store : Store)
    (cap : Capability) (clock : Clock) :
    LocalKeys (buildRegistry ssh keys store cap clock).1 := by
  have hgo : ∀ (keys : List String) (registry : PublicKeyRegistry) (store : Store) (clock : Clock),
      LocalKeys registry → LocalKeys (buildRegistry.go ssh cap registry keys store clock).1 := by
    intro keys
    induction keys with
    | nil =>
      intro registry store clock h
      exact h
    | cons kvKey keys ih =>
      intro registry store clock h
      unfold buildRegistry.go
      dsimp only
      split
      · exact ih _ _ _ (localKeys_registerFromPem h kvKey _)
      · exact ih _ _ _ h
  exact hgo keys _ store clock localKeys_new

/-- The live registry holds the base as it was, and beside it only discovered
keys. -/
structure KeepsBase (ssh : SshKeys) (r : Refresh) (target : DiscoveryTarget) : Prop where
  kept : ∀ b entry, target.base.lookup b = some entry → target.live.lookup b = some entry
  others : ∀ b entry, target.live.lookup b = some entry → target.base.lookup b = none →
    ∃ exe, r.exe = some exe ∧ ∃ key ∈ r.keys, opEntry ssh exe r.source key = some entry

theorem keepsBase_applyDiscovery_iff {ssh : SshKeys} {target : DiscoveryTarget}
    (hbase : LocalKeys target.base) (r : Refresh) :
    KeepsBase ssh r (target.applyDiscovery ssh r) ↔ r.AvoidsBase ssh target.base := by
  rw [avoidsBase_iff]
  constructor
  · intro h entry hentry
    by_contra hheld
    obtain ⟨held, hheld⟩ := Option.ne_none_iff_exists'.mp hheld
    have hkept := h.kept _ _ hheld
    rw [lookup_applyDiscovery] at hkept
    rcases hover : overlaid (r.entries ssh) entry.keyBlob with _ | laid
    · exact overlaid_eq_none.mp hover entry hentry rfl
    · rw [hover] at hkept
      cases hkept
      obtain ⟨exe, -, key, -, hop⟩ := mem_entries.mp (overlaid_mem hover).1
      exact (opEntry_some hop).2.2 (hbase _ _ hheld).1
  · intro h
    constructor
    · intro b entry hb
      rw [lookup_applyDiscovery]
      rcases hover : overlaid (r.entries ssh) b with _ | laid
      · exact hb
      · obtain ⟨hmem, rfl⟩ := overlaid_mem hover
        have hnone := h laid hmem
        rw [show target.base.lookup laid.keyBlob = some entry from hb] at hnone
        cases hnone
    · intro b entry hlive hb
      rw [lookup_applyDiscovery, show target.base.lookup b = none from hb, Option.or_none] at hlive
      exact mem_entries.mp (overlaid_mem hlive).1

theorem applyDiscovery_twice (ssh : SshKeys) (target : DiscoveryTarget) (r : Refresh) :
    (target.applyDiscovery ssh r).applyDiscovery ssh r = target.applyDiscovery ssh r := rfl

theorem along_keepsBase_iff {ssh : SshKeys} {target : DiscoveryTarget}
    (hbase : LocalKeys target.base) (refreshes : List Refresh) :
    Along (DiscoveryTarget.applyDiscovery ssh)
        (fun t r => KeepsBase ssh r (t.applyDiscovery ssh r) ∧
          (t.applyDiscovery ssh r).applyDiscovery ssh r = t.applyDiscovery ssh r)
        target refreshes ↔
      ∀ r ∈ refreshes, r.AvoidsBase ssh target.base := by
  induction refreshes generalizing target with
  | nil => simp [Along]
  | cons r refreshes ih =>
    rw [List.forall_mem_cons]
    apply and_congr
    · rw [← keepsBase_applyDiscovery_iff hbase]
      exact and_iff_left (applyDiscovery_twice ssh target r)
    · exact @ih (target.applyDiscovery ssh r) hbase

/-- Over every sequence of discovery results, each refresh keeps the local keys
of the socket and adds only discovered ones, and is the same applied again,
exactly when no result holds a usable key under the blob of a local one. -/
theorem local_keys_kept_iff (ssh : SshKeys) (kvKeys : List String) (store : Store)
    (cap : Capability) (clock : Clock) (live : PublicKeyRegistry) (refreshes : List Refresh) :
    Along (DiscoveryTarget.applyDiscovery ssh)
        (fun t r => KeepsBase ssh r (t.applyDiscovery ssh r) ∧
          (t.applyDiscovery ssh r).applyDiscovery ssh r = t.applyDiscovery ssh r)
        ⟨(buildRegistry ssh kvKeys store cap clock).1, live⟩ refreshes ↔
      ∀ r ∈ refreshes, r.AvoidsBase ssh (buildRegistry ssh kvKeys store cap clock).1 :=
  along_keepsBase_iff (localKeys_buildRegistry ssh kvKeys store cap clock) refreshes

namespace Collision

/-- Every private key text and every public key text denotes the same key. -/
def oneKey : SshKeys where
  publicKeyBlobFromPem _ := some ([7], none)
  publicKeyFromOpenssh _ := some [7]
  sign _ data _ := some data

def store : Store :=
  ((Store.newWithToken 0 Duration.zero).set "ns/k" .static [1] Ttl.never ⟨0⟩ Monotonic.zero).2

def base : PublicKeyRegistry :=
  (buildRegistry oneKey ["ns/k"] store ⟨0⟩ (Clock.constant Monotonic.zero)).1

def refresh : Refresh where
  exe := some "cache-warden"
  source := ⟨none, none, none⟩
  keys := [⟨"item1", "ssh-ed25519 AAAA", "laptop"⟩]

theorem base_lookup : base.lookup [7] = some ⟨[7], "ns/k", "ns/k", .local⟩ := by decide

theorem live_lookup :
    ((DiscoveryTarget.mk base base).applyDiscovery oneKey refresh).live.lookup [7] =
      some ⟨[7], "laptop", "authsock/op_item1",
        .op ["cache-warden", "__authsock-op-private-key", "item1"] none none⟩ := by decide

/-- A key kept both in the store and in the discovered vault: the refresh puts
the discovered entry in the local one's place. -/
theorem local_key_replaced :
    ¬ KeepsBase oneKey refresh ((DiscoveryTarget.mk base base).applyDiscovery oneKey refresh) := by
  intro h
  have hkept := h.kept [7] _ base_lookup
  rw [live_lookup] at hkept
  revert hkept
  decide

end Collision

end CacheWarden
