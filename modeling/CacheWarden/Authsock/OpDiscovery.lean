import CacheWarden.Authsock.Registry
import CacheWarden.Key
import CacheWarden.Lib.Firsts
import CacheWarden.Lib.Transition

/-!
# Discovery of op keys, and the cache it leaves

Every source lists its items and resolves the public key of each, and what all
the fresh ones have found is merged into one cache. The sockets of a later start
are seeded from that cache: which of its entries are a source's is decided again
then, by the vault and the item that a member names. `serde_json` and the `op`
program are outside the repository.
-/

set_option autoImplicit false

namespace CacheWarden

namespace OpDiscovery

open Firsts Transition

section Listing

structure OpSource where
  vault : Option String
  item : Option String
  deriving DecidableEq

/-- `op://`, `op://VAULT` or `op://VAULT/ITEM`. Other members are no op source. -/
def OpSource.parse (member : String) : Option OpSource :=
  (member.toList.dropPrefix? "op://".toList).map fun rest =>
    match splitOnceSlash rest with
    | some (v, i) =>
      if !v.isEmpty && !i.isEmpty then ⟨some (String.ofList v), some (String.ofList i)⟩
      else ⟨some (String.ofList rest), none⟩
    | none => if rest.isEmpty then ⟨none, none⟩ else ⟨some (String.ofList rest), none⟩

structure OpItemListEntry where
  id : String
  title : String
  vaultId : String
  vaultName : String
  additionalInformation : Option String
  deriving DecidableEq

structure OpKeyInfo where
  itemId : String
  title : String
  vaultId : String
  vaultName : String
  fingerprint : String
  deriving DecidableEq

/-- What `serde_json` reads out of the output of `op`. -/
structure OpSerde where
  itemList : Bytes → Option (List OpItemListEntry)
  fieldValue : Bytes → Option String

/-- The `op` program under one account while one source is discovered: what the
listing of each of its members prints, and the public key of each item. -/
structure OpClient where
  itemListJson : ℕ → Option String → Option Bytes
  itemGetPublicKeyJson : String → Option Bytes

inductive OpError where
  | call
  | parse
  deriving DecidableEq

def OpItemListEntry.key (self : OpItemListEntry) : Option OpKeyInfo :=
  self.additionalInformation.bind fun fingerprint =>
    if "SHA256:".toList.isPrefixOf fingerprint.toList then
      some ⟨self.id, self.title, self.vaultId, self.vaultName, fingerprint⟩
    else none

def parseItemList (serde : OpSerde) (json : Bytes) (item : Option String) :
    Except OpError (List OpKeyInfo) :=
  match serde.itemList json with
  | none => .error .parse
  | some entries =>
    .ok ((entries.filterMap OpItemListEntry.key).filter fun k =>
      item.all fun i => k.title = i || k.itemId = i)

def parseFieldValue (serde : OpSerde) (json : Bytes) : Except OpError String :=
  match serde.fieldValue json with
  | none => .error .parse
  | some value => .ok value

end Listing

section Cache

structure CacheProvenance where
  account : Option String
  deriving DecidableEq

structure CachedKey where
  itemId : String
  fingerprint : String
  publicKey : String
  title : String
  vault : String
  provenance : Option CacheProvenance
  deriving DecidableEq

def cacheVersion : UInt32 := 1

structure OpKeyCache where
  version : UInt32
  keys : List CachedKey
  deriving DecidableEq

namespace OpKeyCache

def new : OpKeyCache := ⟨cacheVersion, []⟩

/-- Of two entries with one fingerprint the later is found. -/
def byFingerprint (self : OpKeyCache) (fingerprint : String) : Option CachedKey :=
  self.keys.reverse.find? fun k => k.fingerprint = fingerprint

/-- The file as it parses, if it does. One of another version counts for nothing. -/
def load (file : Option OpKeyCache) : OpKeyCache :=
  match file with
  | some cache => if cache.version = cacheVersion then cache else new
  | none => new

end OpKeyCache

structure DiscoveredKey extends CacheWarden.DiscoveredKey where
  fingerprint : String
  vault : String
  deriving DecidableEq

def OpKeyInfo.found (self : OpKeyInfo) (publicKey : String) : DiscoveredKey :=
  ⟨⟨self.itemId, publicKey, self.title⟩, self.fingerprint, self.vaultName⟩

def DiscoveredKey.cached (account : Option String) (self : DiscoveredKey) : CachedKey :=
  ⟨self.itemId, self.fingerprint, self.publicKey, self.title, self.vault, some ⟨account⟩⟩

def CachedKey.discovered (self : CachedKey) : DiscoveredKey :=
  ⟨⟨self.itemId, self.publicKey, self.title⟩, self.fingerprint, self.vault⟩

def sourceMatches (source : OpSource) (entry : CachedKey) : Bool :=
  source.vault.all (fun vault => entry.vault = vault) &&
    source.item.all fun item => entry.title = item || entry.itemId = item

/-- The entry was found under this account, in what these members name. -/
def belongs (sources : List OpSource) (account : Option String) (entry : CachedKey) : Bool :=
  entry.provenance.any (fun p => p.account = account) &&
    sources.any fun source => sourceMatches source entry

def fallbackFrom (sources : List OpSource) (account : Option String) :
    List CachedKey → List String → List DiscoveredKey
  | [], _ => []
  | entry :: rest, seenFp =>
    if !belongs sources account entry then fallbackFrom sources account rest seenFp
    else if entry.publicKey.isEmpty then fallbackFrom sources account rest seenFp
    else if entry.fingerprint ∈ seenFp then fallbackFrom sources account rest seenFp
    else entry.discovered :: fallbackFrom sources account rest (entry.fingerprint :: seenFp)

def fallbackFromCache (cache : OpKeyCache) (sources : List OpSource) (account : Option String) :
    List DiscoveredKey :=
  fallbackFrom sources account cache.keys []

def seedFromCache (cache : OpKeyCache) (sources : List OpSource) (account : Option String) :
    List DiscoveredKey :=
  fallbackFromCache cache sources account

def mergeSourceCache (cache : OpKeyCache) (sources : List OpSource) (account : Option String)
    (fresh : OpKeyCache) : OpKeyCache :=
  { cache with
    keys := (cache.keys.filter fun entry => !belongs sources account entry) ++ fresh.keys }

end Cache

section Discovery

variable (serde : OpSerde) (client : OpClient) (cache : OpKeyCache)

/-- The public key as the cache has it, or else as `op` shows it. -/
def resolveOne (info : OpKeyInfo) : Except OpError DiscoveredKey :=
  match cache.byFingerprint info.fingerprint with
  | some cached => .ok (info.found cached.publicKey)
  | none =>
    match client.itemGetPublicKeyJson info.itemId with
    | none => .error .call
    | some json =>
      match parseFieldValue serde json with
      | .error e => .error e
      | .ok publicKey => .ok (info.found publicKey)

structure Discovering where
  discovered : List DiscoveredKey
  seenFp : List String
  freshCache : OpKeyCache

def Discovering.push (self : Discovering) (account : Option String) (key : DiscoveredKey) :
    Discovering where
  discovered := self.discovered ++ [key]
  seenFp := key.fingerprint :: self.seenFp
  freshCache := { self.freshCache with keys := self.freshCache.keys ++ [key.cached account] }

def discoverInfos (account : Option String) :
    List OpKeyInfo → Discovering → Except OpError Discovering
  | [], found => .ok found
  | info :: rest, found =>
    if info.fingerprint ∈ found.seenFp then discoverInfos account rest found
    else
      match resolveOne serde client cache info with
      | .error e => .error e
      | .ok key => discoverInfos account rest (found.push account key)

inductive DiscoveryOutcome where
  | fresh (keys : List DiscoveredKey) (cache : OpKeyCache)
  | stale (keys : List DiscoveredKey) (error : OpError)

/-- A listing that fails has every source served from the cache. -/
def discoverMembers (sources : List OpSource) (account : Option String) :
    ℕ → List OpSource → Discovering → Except OpError DiscoveryOutcome
  | _, [], found => .ok (.fresh found.discovered found.freshCache)
  | n, source :: rest, found =>
    match client.itemListJson n source.vault with
    | none => .ok (.stale (fallbackFromCache cache sources account) .call)
    | some json =>
      match parseItemList serde json source.item with
      | .error e => .error e
      | .ok infos =>
        match discoverInfos serde client cache account infos found with
        | .error e => .error e
        | .ok found => discoverMembers sources account (n + 1) rest found

def discoverKeys (sources : List OpSource) (account : Option String) :
    Except OpError DiscoveryOutcome :=
  discoverMembers serde client cache sources account 0 sources ⟨[], [], OpKeyCache.new⟩

end Discovery

structure AuthsockSource extends CacheWarden.AuthsockSource where
  name : String
  members : List String
  deriving DecidableEq

namespace AuthsockSource

def opSources (self : AuthsockSource) : List OpSource := self.members.filterMap OpSource.parse

def belongs (self : AuthsockSource) (entry : CachedKey) : Bool :=
  OpDiscovery.belongs self.opSources self.opAccount entry

def seed (self : AuthsockSource) (file : Option OpKeyCache) : List DiscoveredKey :=
  seedFromCache (OpKeyCache.load file) self.opSources self.opAccount

end AuthsockSource

/-- What a pass has come to for one source. -/
structure SourceDiscovery where
  source : AuthsockSource
  fresh : Bool
  keys : List DiscoveredKey

section Pass

variable (serde : OpSerde) (pass : ℕ → OpClient)

/-- Each source is given the view that has been merged so far. -/
def discoverSources :
    ℕ → List AuthsockSource → OpKeyCache → List SourceDiscovery × OpKeyCache
  | _, [], merged => ([], merged)
  | n, source :: rest, merged =>
    match discoverKeys serde (pass n) merged source.opSources source.opAccount with
    | .ok (.fresh keys freshCache) =>
      let more := discoverSources (n + 1) rest
        (mergeSourceCache merged source.opSources source.opAccount freshCache)
      (⟨source, true, keys⟩ :: more.1, more.2)
    | .ok (.stale keys _) =>
      let more := discoverSources (n + 1) rest merged
      (⟨source, false, keys⟩ :: more.1, more.2)
    | .error _ =>
      let more := discoverSources (n + 1) rest merged
      (⟨source, false, []⟩ :: more.1, more.2)

/-- One pass over all sources. The file is written if any was fresh. -/
def discoverAllSources (sources : List AuthsockSource) (file : Option OpKeyCache) :
    List SourceDiscovery × Option OpKeyCache :=
  let discovered := discoverSources serde pass 0 sources (OpKeyCache.load file)
  (discovered.1, if discovered.1.any SourceDiscovery.fresh then some discovered.2 else file)

end Pass

section Found

variable {serde : OpSerde} {client : OpClient} {cache : OpKeyCache} {account : Option String}

/-- An entry that the cache would give back to a source with these members. -/
def eligible (sources : List OpSource) (account : Option String) (entry : CachedKey) : Bool :=
  belongs sources account entry && !entry.publicKey.isEmpty

theorem fallbackFrom_eq (sources : List OpSource) (entries : List CachedKey)
    (seenFp : List String) :
    fallbackFrom sources account entries seenFp =
      (firsts CachedKey.fingerprint seenFp (entries.filter (eligible sources account))).map
        CachedKey.discovered := by
  induction entries generalizing seenFp with
  | nil => rfl
  | cons entry rest ih =>
    rw [fallbackFrom, List.filter_cons]
    unfold eligible
    cases hbelongs : belongs sources account entry with
    | false => exact ih seenFp
    | true =>
    cases hempty : entry.publicKey.isEmpty with
    | true => exact ih seenFp
    | false =>
    simp only [Bool.not_true, Bool.false_eq_true, if_false, Bool.not_false, Bool.and_self, if_true,
      firsts]
    by_cases hseen : entry.fingerprint ∈ seenFp
    · rw [if_pos hseen, if_pos hseen]
      exact ih seenFp
    · rw [if_neg hseen, if_neg hseen, List.map_cons]
      exact congrArg (List.cons entry.discovered) (ih _)

theorem byFingerprint_some {fingerprint : String} {entry : CachedKey}
    (h : cache.byFingerprint fingerprint = some entry) :
    entry ∈ cache.keys ∧ entry.fingerprint = fingerprint := by
  have hmem := List.mem_of_find?_eq_some h
  have hfound := List.find?_some h
  exact ⟨List.mem_reverse.mp hmem, by simpa using hfound⟩

theorem byFingerprint_none {fingerprint : String} :
    cache.byFingerprint fingerprint = none ↔ ∀ e ∈ cache.keys, e.fingerprint ≠ fingerprint := by
  simp [OpKeyCache.byFingerprint]

/-- The public key of what was listed, out of the cache or from `op`. -/
inductive Resolved (serde : OpSerde) (client : OpClient) (cache : OpKeyCache) (info : OpKeyInfo) :
    DiscoveredKey → Prop
  | cached (entry : CachedKey) (hentry : cache.byFingerprint info.fingerprint = some entry) :
      Resolved serde client cache info (info.found entry.publicKey)
  | shown (json : Bytes) (publicKey : String)
      (hnone : ∀ e ∈ cache.keys, e.fingerprint ≠ info.fingerprint)
      (hjson : client.itemGetPublicKeyJson info.itemId = some json)
      (hvalue : serde.fieldValue json = some publicKey) :
      Resolved serde client cache info (info.found publicKey)

theorem resolveOne_ok {info : OpKeyInfo} {key : DiscoveredKey}
    (h : resolveOne serde client cache info = .ok key) : Resolved serde client cache info key := by
  unfold resolveOne at h
  split at h
  · rename_i entry hentry
    cases h
    exact .cached entry hentry
  · rename_i hnone
    split at h
    · cases h
    · rename_i json hjson
      unfold parseFieldValue at h
      cases hvalue : serde.fieldValue json with
      | none =>
        rw [hvalue] at h
        cases h
      | some publicKey =>
        rw [hvalue] at h
        cases h
        exact .shown json publicKey (byFingerprint_none.mp hnone) hjson hvalue

theorem Resolved.found {info : OpKeyInfo} {key : DiscoveredKey}
    (h : Resolved serde client cache info key) : ∃ publicKey, key = info.found publicKey := by
  cases h with
  | cached entry _ => exact ⟨_, rfl⟩
  | shown _ publicKey _ _ _ => exact ⟨_, rfl⟩

theorem Resolved.fingerprint {info : OpKeyInfo} {key : DiscoveredKey}
    (h : Resolved serde client cache info key) : key.fingerprint = info.fingerprint := by
  obtain ⟨publicKey, rfl⟩ := h.found
  rfl

theorem discoverInfos_ok {infos : List OpKeyInfo} {found found' : Discovering}
    (h : discoverInfos serde client cache account infos found = .ok found') :
    ∃ keys, found'.discovered = found.discovered ++ keys ∧
      found'.freshCache.keys =
        found.freshCache.keys ++ keys.map (DiscoveredKey.cached account) ∧
      List.Forall₂ (Resolved serde client cache)
        (firsts OpKeyInfo.fingerprint found.seenFp infos) keys := by
  induction infos generalizing found with
  | nil =>
    cases h
    exact ⟨[], by simp, by simp, .nil⟩
  | cons info rest ih =>
    rw [discoverInfos] at h
    rw [firsts]
    by_cases hseen : info.fingerprint ∈ found.seenFp
    · rw [if_pos hseen] at h ⊢
      exact ih h
    · rw [if_neg hseen] at h ⊢
      cases hresolve : resolveOne serde client cache info with
      | error e =>
        rw [hresolve] at h
        cases h
      | ok key =>
        rw [hresolve] at h
        obtain ⟨keys, hdiscovered, hfresh, hkeys⟩ := ih h
        have hresolved := resolveOne_ok hresolve
        refine ⟨key :: keys, ?_, ?_, .cons hresolved ?_⟩
        · rw [hdiscovered]
          simp [Discovering.push]
        · rw [hfresh]
          simp [Discovering.push]
        · rw [← hresolved.fingerprint]
          exact hkeys

theorem discoverInfos_append {infos rest : List OpKeyInfo} {found : Discovering} :
    discoverInfos serde client cache account (infos ++ rest) found =
      (discoverInfos serde client cache account infos found).bind fun found =>
        discoverInfos serde client cache account rest found := by
  induction infos generalizing found with
  | nil => rfl
  | cons info infos ih =>
    rw [List.cons_append, discoverInfos, discoverInfos]
    by_cases hseen : info.fingerprint ∈ found.seenFp
    · rw [if_pos hseen, if_pos hseen]
      exact ih
    · rw [if_neg hseen, if_neg hseen]
      cases resolveOne serde client cache info with
      | error e => rfl
      | ok key => exact ih

end Found

/-- All that the members list, if every listing is printed and can be read. -/
def listing (serde : OpSerde) (client : OpClient) : ℕ → List OpSource → Option (List OpKeyInfo)
  | _, [] => some []
  | n, source :: rest =>
    match client.itemListJson n source.vault with
    | none => none
    | some json =>
      match parseItemList serde json source.item with
      | .error _ => none
      | .ok infos => (listing serde client (n + 1) rest).map fun more => infos ++ more

section Fresh

variable {serde : OpSerde} {client : OpClient} {cache : OpKeyCache} {account : Option String}
  {sources : List OpSource} {keys : List DiscoveredKey} {freshCache : OpKeyCache}

theorem discoverMembers_fresh {n : ℕ} {members : List OpSource} {found : Discovering}
    (h : discoverMembers serde client cache sources account n members found =
      .ok (.fresh keys freshCache)) :
    ∃ infos found', listing serde client n members = some infos ∧
      discoverInfos serde client cache account infos found = .ok found' ∧
      keys = found'.discovered ∧ freshCache = found'.freshCache := by
  induction members generalizing n found with
  | nil =>
    cases h
    exact ⟨[], found, rfl, rfl, rfl, rfl⟩
  | cons source rest ih =>
    rw [discoverMembers] at h
    rw [listing]
    cases hjson : client.itemListJson n source.vault with
    | none =>
      rw [hjson] at h
      cases h
    | some json =>
    simp only [hjson] at h ⊢
    cases hparse : parseItemList serde json source.item with
    | error e =>
      rw [hparse] at h
      cases h
    | ok infos =>
    simp only [hparse] at h ⊢
    cases hinfos : discoverInfos serde client cache account infos found with
    | error e =>
      rw [hinfos] at h
      cases h
    | ok found' =>
    simp only [hinfos] at h
    obtain ⟨more, found'', hmore, hdiscover, hkeys, hfresh⟩ := ih h
    refine ⟨infos ++ more, found'', ?_, ?_, hkeys, hfresh⟩
    · rw [hmore]
      rfl
    · rw [discoverInfos_append, hinfos]
      exact hdiscover

/-- What a fresh discovery has found: one key for each fingerprint that was listed. -/
theorem discoverKeys_fresh
    (h : discoverKeys serde client cache sources account = .ok (.fresh keys freshCache)) :
    ∃ infos, listing serde client 0 sources = some infos ∧
      freshCache.keys = keys.map (DiscoveredKey.cached account) ∧
      List.Forall₂ (Resolved serde client cache) (firsts OpKeyInfo.fingerprint [] infos) keys := by
  obtain ⟨infos, found', hlisting, hinfos, rfl, rfl⟩ := discoverMembers_fresh h
  obtain ⟨keys, hdiscovered, hfresh, hkeys⟩ := discoverInfos_ok hinfos
  rw [hdiscovered, hfresh]
  exact ⟨infos, hlisting, rfl, hkeys⟩

end Fresh

section Conditions

/-- What was listed falls inside the source, as the cache would tell. -/
def AuthsockSource.covers (self : AuthsockSource) (account : Option String) (info : OpKeyInfo) :
    Bool :=
  self.belongs ((info.found "").cached account)

/-- What each source of a pass lists, if all of it can be read. -/
def listings (serde : OpSerde) (pass : ℕ → OpClient) :
    ℕ → List AuthsockSource → List (AuthsockSource × Option (List OpKeyInfo))
  | _, [] => []
  | n, source :: rest =>
    (source, listing serde (pass n) 0 source.opSources) :: listings serde pass (n + 1) rest

/-- The first item under each fingerprint. -/
def leading (infos : List OpKeyInfo) : List OpKeyInfo := firsts OpKeyInfo.fingerprint [] infos

/-- The source covers what it lists first under each fingerprint. -/
def Inside (source : AuthsockSource) (infos : List OpKeyInfo) : Prop :=
  ∀ info ∈ leading infos, source.covers source.opAccount info = true

instance (source : AuthsockSource) (infos : List OpKeyInfo) : Decidable (Inside source infos) :=
  inferInstanceAs (Decidable (∀ info ∈ leading infos, source.covers source.opAccount info = true))

/-- A source lists the fingerprint of what it covers of another's, and within one
account a fingerprint leads to one item. -/
structure Agreed (lists : List (AuthsockSource × List OpKeyInfo)) : Prop where
  covered : ∀ p ∈ lists, ∀ q ∈ lists, ∀ info ∈ leading p.2,
    q.1.covers p.1.opAccount info = true → ∃ info' ∈ q.2, info'.fingerprint = info.fingerprint
  single : ∀ p ∈ lists, ∀ q ∈ lists, p.1.opAccount = q.1.opAccount →
    ∀ info ∈ leading p.2, ∀ info' ∈ leading q.2, info.fingerprint = info'.fingerprint →
      info.found "" = info'.found ""

/-- The sources of a pass whose lists could all be read. -/
def answered (lists : List (AuthsockSource × Option (List OpKeyInfo))) :
    List (AuthsockSource × List OpKeyInfo) :=
  lists.filterMap fun p => p.2.map fun infos => (p.1, infos)

/-- Each source covers what it lists, the sources agree where all of them could
list, and no public key of what is listed is shown as an empty text. -/
structure Orderly (serde : OpSerde) (sources : List AuthsockSource) (pass : ℕ → OpClient) :
    Prop where
  inside : ∀ p ∈ answered (listings serde pass 0 sources), Inside p.1 p.2
  agreed : (∀ p ∈ listings serde pass 0 sources, p.2.isSome = true) →
    Agreed (answered (listings serde pass 0 sources))
  shown : ∀ n source infos, (listings serde pass 0 sources)[n]? = some (source, some infos) →
    ∀ info ∈ leading infos, ∀ json, (pass n).itemGetPublicKeyJson info.itemId = some json →
      serde.fieldValue json ≠ some ""

theorem answered_map (lists : List (AuthsockSource × List OpKeyInfo)) :
    answered (lists.map fun p => (p.1, some p.2)) = lists := by
  unfold answered
  rw [List.filterMap_map]
  exact List.filterMap_some

end Conditions

section Merging

/-- Entries with one fingerprint show one public key. -/
def Alike (keys : List CachedKey) : Prop :=
  ∀ e ∈ keys, ∀ e' ∈ keys, e.fingerprint = e'.fingerprint → e.publicKey = e'.publicKey

/-- A source that came out fresh, with what it listed and what it found. -/
structure Made where
  source : AuthsockSource
  infos : List OpKeyInfo
  keys : List DiscoveredKey

def Made.result (self : Made) : SourceDiscovery := ⟨self.source, true, self.keys⟩

def Made.listed (self : Made) : AuthsockSource × List OpKeyInfo := (self.source, self.infos)

/-- The entries of the cache once these sources have been merged into it: what is
left of the old ones, and the new. -/
structure Progress (start : List CachedKey) (done : List Made) (old new : List CachedKey) :
    Prop where
  before : ∀ e ∈ old, e ∈ start ∧ ∀ f ∈ done, f.source.belongs e = false
  keys : ∀ f ∈ done, ∀ key ∈ f.keys, ∃ info ∈ leading f.infos, ∃ publicKey,
    key = info.found publicKey
  found : ∀ f ∈ done, ∀ info ∈ leading f.infos, ∃ publicKey, info.found publicKey ∈ f.keys
  nodup : ∀ f ∈ done, (f.keys.map DiscoveredKey.fingerprint).Nodup
  made : ∀ e ∈ new, ∃ f ∈ done, ∃ key ∈ f.keys, e = key.cached f.source.opAccount
  kept : ∀ f ∈ done, ∀ key ∈ f.keys, key.cached f.source.opAccount ∈ new
  single : new.Pairwise fun e e' => e.provenance = e'.provenance → e.fingerprint ≠ e'.fingerprint
  alike : Alike (old ++ new)

theorem progress_start {start : List CachedKey} (h : Alike start) : Progress start [] start [] where
  before e he := ⟨he, fun f hf => by cases hf⟩
  keys f hf := by cases hf
  found f hf := by cases hf
  nodup f hf := by cases hf
  made e he := by cases he
  kept f hf := by cases hf
  single := List.Pairwise.nil
  alike := by rwa [List.append_nil]

theorem covers_found {source : AuthsockSource} {account : Option String} {info : OpKeyInfo}
    (publicKey : String) :
    source.belongs ((info.found publicKey).cached account) = source.covers account info := rfl

theorem account_of_covers {source : AuthsockSource} {account : Option String} {info : OpKeyInfo}
    (h : source.covers account info = true) : account = source.opAccount := by
  unfold AuthsockSource.covers AuthsockSource.belongs belongs at h
  rw [Bool.and_eq_true] at h
  exact of_decide_eq_true h.1

theorem found_congr {info info' : OpKeyInfo} (h : info.found "" = info'.found "")
    (publicKey : String) : info.found publicKey = info'.found publicKey := by
  simp only [OpKeyInfo.found, DiscoveredKey.mk.injEq, CacheWarden.DiscoveredKey.mk.injEq] at h ⊢
  exact ⟨⟨h.1.1, trivial, h.1.2.2⟩, h.2⟩

theorem forall₂_left {α β : Type} {R : α → β → Prop} {as : List α} {bs : List β}
    (h : List.Forall₂ R as bs) {a : α} (ha : a ∈ as) : ∃ b ∈ bs, R a b := by
  induction h with
  | nil => cases ha
  | cons hr _ ih =>
    rcases List.mem_cons.mp ha with rfl | ha
    · exact ⟨_, List.mem_cons_self, hr⟩
    · obtain ⟨b, hb, hrest⟩ := ih ha
      exact ⟨b, List.mem_cons_of_mem _ hb, hrest⟩

theorem forall₂_right {α β : Type} {R : α → β → Prop} {as : List α} {bs : List β}
    (h : List.Forall₂ R as bs) {b : β} (hb : b ∈ bs) : ∃ a ∈ as, R a b :=
  forall₂_left h.flip hb

variable {serde : OpSerde} {client : OpClient} {cache : OpKeyCache} {source : AuthsockSource}
  {infos : List OpKeyInfo} {keys : List DiscoveredKey} {start : List CachedKey} {done : List Made}
  {old new : List CachedKey}

theorem fingerprints_of_resolved (h : List.Forall₂ (Resolved serde client cache) infos keys) :
    keys.map DiscoveredKey.fingerprint = infos.map OpKeyInfo.fingerprint := by
  induction h with
  | nil => rfl
  | cons hr _ ih => rw [List.map_cons, List.map_cons, hr.fingerprint, ih]

theorem nodup_of_resolved
    (h : List.Forall₂ (Resolved serde client cache) (leading infos) keys) :
    (keys.map DiscoveredKey.fingerprint).Nodup := by
  rw [fingerprints_of_resolved h]
  exact nodup_firsts

theorem eq_of_fingerprint (h : (keys.map DiscoveredKey.fingerprint).Nodup) {key key' : DiscoveredKey}
    (hkey : key ∈ keys) (hkey' : key' ∈ keys) (hfp : key.fingerprint = key'.fingerprint) :
    key = key' :=
  List.inj_on_of_nodup_map h hkey hkey' hfp

/-- A key that was resolved shows what the entries under its fingerprint show. -/
theorem resolved_alike (halike : Alike cache.keys) {info : OpKeyInfo} {key : DiscoveredKey}
    (h : Resolved serde client cache info key) {e : CachedKey} (he : e ∈ cache.keys)
    (hfp : e.fingerprint = key.fingerprint) : e.publicKey = key.publicKey := by
  rw [h.fingerprint] at hfp
  cases h with
  | cached entry hentry =>
    obtain ⟨hmem, hentryfp⟩ := byFingerprint_some hentry
    exact halike e he entry hmem (hfp.trans hentryfp.symm)
  | shown json publicKey hnone _ _ => exact absurd hfp (hnone e he)

theorem alike_merge (halike : Alike cache.keys)
    (hkeys : List.Forall₂ (Resolved serde client cache) (leading infos) keys)
    {kept : List CachedKey} (hkept : ∀ e ∈ kept, e ∈ cache.keys) :
    Alike (kept ++ keys.map (DiscoveredKey.cached source.opAccount)) := by
  have hcross : ∀ e ∈ kept, ∀ key ∈ keys, e.fingerprint = key.fingerprint →
      e.publicKey = key.publicKey := by
    intro e he key hkey hfp
    obtain ⟨info, -, hresolved⟩ := forall₂_right hkeys hkey
    exact resolved_alike halike hresolved (hkept e he) hfp
  intro e he e' he' hfp
  rcases List.mem_append.mp he with he | he <;> rcases List.mem_append.mp he' with he' | he'
  · exact halike e (hkept e he) e' (hkept e' he') hfp
  · obtain ⟨key, hkey, rfl⟩ := List.mem_map.mp he'
    exact hcross e he key hkey hfp
  · obtain ⟨key, hkey, rfl⟩ := List.mem_map.mp he
    exact (hcross e' he' key hkey hfp.symm).symm
  · obtain ⟨key, hkey, rfl⟩ := List.mem_map.mp he
    obtain ⟨key', hkey', rfl⟩ := List.mem_map.mp he'
    rw [eq_of_fingerprint (nodup_of_resolved hkeys) hkey hkey' hfp]

/-- What another source has found, and this one covers, this one finds too. -/
theorem found_again (hkeys : List.Forall₂ (Resolved serde client cache) (leading infos) keys)
    (halike : Alike cache.keys) {lists : List (AuthsockSource × List OpKeyInfo)}
    (hagreed : Agreed lists) (hmem : (source, infos) ∈ lists)
    {other : AuthsockSource × List OpKeyInfo} (hother : other ∈ lists) {info : OpKeyInfo} (hinfo : info ∈ leading other.2)
    (hcovers : source.covers other.1.opAccount info = true) {publicKey : String}
    (hentry : (info.found publicKey).cached other.1.opAccount ∈ cache.keys) :
    info.found publicKey ∈ keys := by
  obtain ⟨listed, hlisted, hfp⟩ := hagreed.covered other hother _ hmem info hinfo hcovers
  obtain ⟨first, hfirst, hfirstfp⟩ :=
    @exists_mem_firsts _ _ _ OpKeyInfo.fingerprint listed [] infos hlisted (by simp)
  have hsame := hagreed.single other hother _ hmem (account_of_covers hcovers) info hinfo first
    hfirst (hfp.symm.trans hfirstfp.symm)
  obtain ⟨key, hkey, hresolved⟩ := forall₂_left hkeys hfirst
  have hshown := resolved_alike halike hresolved hentry
    (hfp.symm.trans (hfirstfp.symm.trans hresolved.fingerprint.symm))
  obtain ⟨publicKey', rfl⟩ := hresolved.found
  rw [found_congr hsame publicKey]
  rw [show publicKey = publicKey' from hshown]
  exact hkey

theorem Progress.merge (h : Progress start done old new) (hcache : cache.keys = old ++ new)
    (hkeys : List.Forall₂ (Resolved serde client cache) (leading infos) keys)
    {lists : List (AuthsockSource × List OpKeyInfo)} (hagreed : Agreed lists)
    (hmem : (source, infos) ∈ lists) (hdone : ∀ f ∈ done, f.listed ∈ lists)
    (hinside : Inside source infos) :
    Progress start (done ++ [⟨source, infos, keys⟩])
      (old.filter fun e => !source.belongs e)
      ((new.filter fun e => !source.belongs e) ++
        keys.map (DiscoveredKey.cached source.opAccount)) := by
  have halike : Alike cache.keys := by
    rw [hcache]
    exact h.alike
  have hlast : ∀ {P : Made → Prop}, (∀ f ∈ done, P f) → P ⟨source, infos, keys⟩ →
      ∀ f ∈ done ++ [⟨source, infos, keys⟩], P f := by
    intro P hd hl f hf
    rcases List.mem_append.mp hf with hf | hf
    · exact hd f hf
    · rw [List.mem_singleton.mp hf]
      exact hl
  constructor
  · intro e he
    obtain ⟨hold, hnot⟩ := List.mem_filter.mp he
    rw [Bool.not_eq_true'] at hnot
    exact ⟨(h.before e hold).1, hlast (h.before e hold).2 hnot⟩
  · refine hlast h.keys ?_
    intro key hkey
    obtain ⟨info, hinfo, hresolved⟩ := forall₂_right hkeys hkey
    exact ⟨info, hinfo, hresolved.found⟩
  · refine hlast h.found ?_
    intro info hinfo
    obtain ⟨key, hkey, hresolved⟩ := forall₂_left hkeys hinfo
    obtain ⟨publicKey, rfl⟩ := hresolved.found
    exact ⟨publicKey, hkey⟩
  · exact hlast h.nodup (nodup_of_resolved hkeys)
  · intro e he
    rcases List.mem_append.mp he with he | he
    · obtain ⟨f, hf, hfrest⟩ := h.made e (List.mem_filter.mp he).1
      exact ⟨f, List.mem_append_left _ hf, hfrest⟩
    · obtain ⟨key, hkey, rfl⟩ := List.mem_map.mp he
      exact ⟨⟨source, infos, keys⟩, by simp, key, hkey, rfl⟩
  · refine hlast ?_ fun key hkey => List.mem_append_right _ (List.mem_map_of_mem hkey)
    intro f hf key hkey
    have hentry := h.kept f hf key hkey
    by_cases hbelongs : source.belongs (key.cached f.source.opAccount) = true
    · obtain ⟨info, hinfo, publicKey, rfl⟩ := h.keys f hf key hkey
      rw [covers_found] at hbelongs
      have hcached : (info.found publicKey).cached f.source.opAccount ∈ cache.keys := by
        rw [hcache]
        exact List.mem_append_right _ hentry
      have hagain : info.found publicKey ∈ keys :=
        found_again hkeys halike hagreed hmem (hdone f hf) hinfo hbelongs hcached
      rw [show f.source.opAccount = source.opAccount from account_of_covers hbelongs]
      exact List.mem_append_right _ (List.mem_map_of_mem hagain)
    · rw [Bool.not_eq_true] at hbelongs
      apply List.mem_append_left
      exact List.mem_filter.mpr ⟨hentry, by rw [hbelongs]; rfl⟩
  · rw [List.pairwise_append]
    refine ⟨h.single.filter _, ?_, ?_⟩
    · rw [List.pairwise_map]
      have hnodup := nodup_of_resolved hkeys
      rw [List.Nodup, List.pairwise_map] at hnodup
      refine hnodup.imp ?_
      intro a b hne _
      exact hne
    · intro e he e' he' hprovenance hfp
      obtain ⟨hin, hnot⟩ := List.mem_filter.mp he
      obtain ⟨f, hf, key, hkey, rfl⟩ := h.made e hin
      obtain ⟨key', hkey', rfl⟩ := List.mem_map.mp he'
      obtain ⟨info, hinfo, publicKey, rfl⟩ := h.keys f hf key hkey
      obtain ⟨info', hinfo', hresolved⟩ := forall₂_right hkeys hkey'
      have haccount : f.source.opAccount = source.opAccount :=
        congrArg CacheProvenance.account (Option.some.inj hprovenance)
      have hsame := hagreed.single _ (hdone f hf) _ hmem haccount info hinfo info' hinfo'
        (hfp.trans hresolved.fingerprint)
      rw [covers_found, haccount] at hnot
      have hcovers := hinside info' hinfo'
      unfold AuthsockSource.covers at hnot hcovers
      rw [hsame, hcovers] at hnot
      cases hnot
  · rw [← List.append_assoc, ← List.filter_append]
    apply alike_merge halike hkeys
    intro e he
    rw [hcache]
    exact (List.mem_filter.mp he).1

end Merging

section Passes

variable {serde : OpSerde} {pass : ℕ → OpClient} {sources : List AuthsockSource}

/-- All sources came out fresh. -/
def AllFresh (results : List SourceDiscovery) : Prop := ∀ r ∈ results, r.fresh = true

instance (results : List SourceDiscovery) : Decidable (AllFresh results) :=
  inferInstanceAs (Decidable (∀ r ∈ results, r.fresh = true))

theorem discoverSources_cons {n : ℕ} {source : AuthsockSource} {rest : List AuthsockSource}
    {merged : OpKeyCache}
    (hfresh : AllFresh (discoverSources serde pass n (source :: rest) merged).1) :
    ∃ keys freshCache,
      discoverKeys serde (pass n) merged source.opSources source.opAccount =
          .ok (.fresh keys freshCache) ∧
        discoverSources serde pass n (source :: rest) merged =
          let more := discoverSources serde pass (n + 1) rest
            (mergeSourceCache merged source.opSources source.opAccount freshCache)
          (⟨source, true, keys⟩ :: more.1, more.2) := by
  rw [discoverSources] at hfresh ⊢
  cases hkeys : discoverKeys serde (pass n) merged source.opSources source.opAccount with
  | error e =>
    rw [hkeys] at hfresh
    cases hfresh _ List.mem_cons_self
  | ok outcome =>
    rw [hkeys] at hfresh
    cases outcome with
    | stale keys e => cases hfresh _ List.mem_cons_self
    | fresh keys freshCache => exact ⟨keys, freshCache, rfl, rfl⟩

theorem listings_of_fresh {n : ℕ} {merged : OpKeyCache}
    (hfresh : AllFresh (discoverSources serde pass n sources merged).1) :
    ∃ lists : List (AuthsockSource × List OpKeyInfo),
      listings serde pass n sources = lists.map fun p => (p.1, some p.2) := by
  induction sources generalizing n merged with
  | nil => exact ⟨[], rfl⟩
  | cons source rest ih =>
    obtain ⟨keys, freshCache, hkeys, hcons⟩ := discoverSources_cons hfresh
    rw [hcons] at hfresh
    obtain ⟨lists, hlists⟩ := ih fun r hr => hfresh r (List.mem_cons_of_mem _ hr)
    obtain ⟨infos, hlisting, -, -⟩ := discoverKeys_fresh hkeys
    refine ⟨(source, infos) :: lists, ?_⟩
    rw [listings, hlists, hlisting]
    rfl

/-- A pass in which every source is fresh merges one after the other. -/
theorem discoverSources_progress {start : List CachedKey} {n : ℕ} {merged : OpKeyCache}
    {done : List Made} {old new : List CachedKey} {lists : List (AuthsockSource × List OpKeyInfo)}
    (hcache : merged.keys = old ++ new) (hprogress : Progress start done old new)
    (hlists : listings serde pass n sources = lists.map fun p => (p.1, some p.2))
    (hagreed : Agreed (done.map Made.listed ++ lists)) (hinside : ∀ p ∈ lists, Inside p.1 p.2)
    (hfresh : AllFresh (discoverSources serde pass n sources merged).1) :
    ∃ made : List Made, made.map Made.result = (discoverSources serde pass n sources merged).1 ∧
      made.map Made.listed = lists ∧
        ∃ old' new', (discoverSources serde pass n sources merged).2.keys = old' ++ new' ∧
          Progress start (done ++ made) old' new' := by
  induction sources generalizing n merged done old new lists with
  | nil =>
    have hnil : lists = [] := List.map_eq_nil_iff.mp hlists.symm
    refine ⟨[], rfl, hnil.symm, old, new, hcache, ?_⟩
    rw [List.append_nil]
    exact hprogress
  | cons source rest ih =>
    obtain ⟨keys, freshCache, hkeys, hcons⟩ := discoverSources_cons hfresh
    rw [hcons] at hfresh ⊢
    obtain ⟨infos, hlisting, hcached, hresolved⟩ := discoverKeys_fresh hkeys
    cases lists with
    | nil => cases hlists
    | cons p lists =>
    rw [listings, hlisting, List.map_cons, List.cons.injEq] at hlists
    obtain ⟨hp, hrest⟩ := hlists
    have hfst : source = p.1 := congrArg Prod.fst hp
    have hsnd : infos = p.2 := Option.some.inj (congrArg Prod.snd hp)
    have hmem : (source, infos) ∈ done.map Made.listed ++ p :: lists := by
      rw [hfst, hsnd]
      simp
    have hnext := hprogress.merge hcache hresolved hagreed hmem
      (fun f hf => List.mem_append_left _ (List.mem_map_of_mem hf))
      (by
        rw [hfst, hsnd]
        exact hinside p List.mem_cons_self)
    have hmerged : (mergeSourceCache merged source.opSources source.opAccount freshCache).keys =
        (old.filter fun e => !source.belongs e) ++
          ((new.filter fun e => !source.belongs e) ++
            keys.map (DiscoveredKey.cached source.opAccount)) := by
      rw [mergeSourceCache, hcached, hcache, List.filter_append, List.append_assoc]
      rfl
    have hlisted : (done ++ [(⟨source, infos, keys⟩ : Made)]).map Made.listed ++ lists =
        done.map Made.listed ++ p :: lists := by
      rw [List.map_append, List.append_assoc, List.map_singleton, List.singleton_append]
      rw [show Made.listed ⟨source, infos, keys⟩ = p from Prod.ext hfst hsnd]
    obtain ⟨made, hresults, hmade, old', new', hkeys', hprogress'⟩ :=
      ih hmerged hnext hrest (by rw [hlisted]; exact hagreed)
        (fun q hq => hinside q (List.mem_cons_of_mem _ hq))
        (fun r hr => hfresh r (List.mem_cons_of_mem _ hr))
    refine ⟨⟨source, infos, keys⟩ :: made, ?_, ?_, old', new', hkeys', ?_⟩
    · rw [List.map_cons, hresults]
      rfl
    · rw [List.map_cons, hmade]
      rw [show Made.listed ⟨source, infos, keys⟩ = p from Prod.ext hfst hsnd]
    · rw [List.append_assoc, List.singleton_append] at hprogress'
      exact hprogress'

/-- The file between two passes: every entry is of a source that is configured,
and can be given back. -/
structure Tidy (sources : List AuthsockSource) (keys : List CachedKey) : Prop where
  owned : ∀ e ∈ keys, ∃ source ∈ sources, source.belongs e = true
  shown : ∀ e ∈ keys, e.publicKey ≠ ""
  alike : Alike keys

theorem tidy_nil : Tidy sources [] where
  owned e he := by cases he
  shown e he := by cases he
  alike e he := by cases he

theorem Tidy.merge {client : OpClient} {merged : OpKeyCache} {source : AuthsockSource}
    {infos : List OpKeyInfo} {keys : List DiscoveredKey} (h : Tidy sources merged.keys)
    (hsource : source ∈ sources) (hinside : Inside source infos)
    (hshown : ∀ info ∈ leading infos, ∀ json,
      client.itemGetPublicKeyJson info.itemId = some json → serde.fieldValue json ≠ some "")
    (hkeys : List.Forall₂ (Resolved serde client merged) (leading infos) keys) :
    Tidy sources ((merged.keys.filter fun e => !source.belongs e) ++
      keys.map (DiscoveredKey.cached source.opAccount)) := by
  constructor
  · intro e he
    rcases List.mem_append.mp he with he | he
    · exact h.owned e (List.mem_filter.mp he).1
    · obtain ⟨key, hkey, rfl⟩ := List.mem_map.mp he
      obtain ⟨info, hinfo, hresolved⟩ := forall₂_right hkeys hkey
      obtain ⟨publicKey, rfl⟩ := hresolved.found
      exact ⟨source, hsource, hinside info hinfo⟩
  · intro e he
    rcases List.mem_append.mp he with he | he
    · exact h.shown e (List.mem_filter.mp he).1
    · obtain ⟨key, hkey, rfl⟩ := List.mem_map.mp he
      obtain ⟨info, hinfo, hresolved⟩ := forall₂_right hkeys hkey
      cases hresolved with
      | cached entry hentry => exact h.shown entry (byFingerprint_some hentry).1
      | shown json publicKey _ hjson hvalue =>
        rintro rfl
        exact hshown info hinfo json hjson hvalue
  · exact alike_merge h.alike hkeys fun e he => (List.mem_filter.mp he).1

theorem tidy_discoverSources {n : ℕ} {rest : List AuthsockSource} {merged : OpKeyCache}
    (h : Tidy sources merged.keys) (hrest : ∀ source ∈ rest, source ∈ sources)
    (hinside : ∀ p ∈ answered (listings serde pass n rest), Inside p.1 p.2)
    (hshown : ∀ i source infos, (listings serde pass n rest)[i]? = some (source, some infos) →
      ∀ info ∈ leading infos, ∀ json, (pass (n + i)).itemGetPublicKeyJson info.itemId = some json →
        serde.fieldValue json ≠ some "") :
    Tidy sources (discoverSources serde pass n rest merged).2.keys := by
  induction rest generalizing n merged with
  | nil => exact h
  | cons source rest ih =>
    have hmore : ∀ source ∈ rest, source ∈ sources :=
      fun s hs => hrest s (List.mem_cons_of_mem _ hs)
    have hlater : ∀ p ∈ answered (listings serde pass (n + 1) rest), Inside p.1 p.2 := by
      intro p hp
      obtain ⟨q, hq, heq⟩ := List.mem_filterMap.mp hp
      exact hinside p (List.mem_filterMap.mpr ⟨q, List.mem_cons_of_mem _ hq, heq⟩)
    have hothers : ∀ i source infos,
        (listings serde pass (n + 1) rest)[i]? = some (source, some infos) →
          ∀ info ∈ leading infos, ∀ json,
            (pass (n + 1 + i)).itemGetPublicKeyJson info.itemId = some json →
              serde.fieldValue json ≠ some "" := by
      intro i source infos hi
      rw [Nat.add_assoc, Nat.add_comm 1 i]
      exact hshown (i + 1) source infos hi
    rw [discoverSources]
    split
    · rename_i keys freshCache hkeys
      obtain ⟨infos, hlisting, hcached, hresolved⟩ := discoverKeys_fresh hkeys
      apply ih _ hmore hlater hothers
      rw [mergeSourceCache, hcached]
      exact h.merge (hrest source List.mem_cons_self)
        (hinside (source, infos)
          (List.mem_filterMap.mpr ⟨_, List.mem_cons_self, by rw [hlisting]; rfl⟩))
        (hshown 0 source infos (by rw [← hlisting]; rfl)) hresolved
    · exact ih h hmore hlater hothers
    · exact ih h hmore hlater hothers

theorem version_load (file : Option OpKeyCache) : (OpKeyCache.load file).version = cacheVersion := by
  unfold OpKeyCache.load
  split
  · split
    · assumption
    · rfl
  · rfl

theorem version_discoverSources {n : ℕ} {merged : OpKeyCache} :
    (discoverSources serde pass n sources merged).2.version = merged.version := by
  induction sources generalizing n merged with
  | nil => rfl
  | cons source rest ih =>
    rw [discoverSources]
    split
    · exact ih
    · exact ih
    · exact ih

theorem load_saved {file : Option OpKeyCache} :
    OpKeyCache.load (some (discoverSources serde pass 0 sources (OpKeyCache.load file)).2) =
      (discoverSources serde pass 0 sources (OpKeyCache.load file)).2 := by
  unfold OpKeyCache.load
  simp only
  exact if_pos (version_discoverSources.trans (version_load file))

end Passes

section Runs

variable (serde : OpSerde) (sources : List AuthsockSource)

/-- The file as one pass leaves it. -/
def step (file : Option OpKeyCache) (pass : ℕ → OpClient) : Option OpKeyCache :=
  (discoverAllSources serde pass sources file).2

/-- The cache gives each source back what the pass has found for it, holds nothing
else of any of them, and one entry at most for each account and fingerprint. -/
structure Seeded (results : List SourceDiscovery) (file : Option OpKeyCache) : Prop where
  seeds : ∀ r ∈ results, (r.source.seed file).Perm r.keys
  pruned : ∀ r ∈ results, ∀ e ∈ (OpKeyCache.load file).keys, r.source.belongs e = true →
    ∃ key ∈ r.keys, e = key.cached r.source.opAccount
  single : (OpKeyCache.load file).keys.Pairwise fun e e' =>
    e.provenance = e'.provenance → e.fingerprint ≠ e'.fingerprint

/-- After a pass in which every source is fresh the cache is in order, and further
passes over the same lists leave it no larger. -/
structure Settles (file : Option OpKeyCache) (pass : ℕ → OpClient) : Prop where
  seeded : AllFresh (discoverAllSources serde pass sources file).1 →
    Seeded (discoverAllSources serde pass sources file).1 (step serde sources file pass)
  steady : AllFresh (discoverAllSources serde pass sources file).1 → ∀ again,
    listings serde again 0 sources = listings serde pass 0 sources →
      AllFresh (discoverAllSources serde again sources (step serde sources file pass)).1 →
        (OpKeyCache.load (step serde sources (step serde sources file pass) again)).keys.length =
          (OpKeyCache.load (step serde sources file pass)).keys.length

variable {serde sources} {file : Option OpKeyCache} {pass : ℕ → OpClient}

/-- What a pass saves, or finds that it need not. -/
theorem load_step (hfresh : AllFresh (discoverAllSources serde pass sources file).1) :
    OpKeyCache.load (step serde sources file pass) =
      (discoverSources serde pass 0 sources (OpKeyCache.load file)).2 := by
  unfold step discoverAllSources
  simp only
  split
  · exact load_saved
  · rename_i hany
    cases sources with
    | nil => rfl
    | cons source rest =>
      obtain ⟨keys, freshCache, -, hcons⟩ := discoverSources_cons hfresh
      rw [hcons] at hany
      simp at hany

theorem tidy_step (h : Tidy sources (OpKeyCache.load file).keys)
    (horderly : Orderly serde sources pass) :
    Tidy sources (OpKeyCache.load (step serde sources file pass)).keys := by
  unfold step discoverAllSources
  simp only
  split
  · rw [load_saved]
    refine tidy_discoverSources h (fun _ hs => hs) horderly.inside ?_
    intro i source infos hi
    rw [Nat.zero_add]
    exact horderly.shown i source infos hi
  · exact h

theorem mem_listings {source : AuthsockSource} {n : ℕ} (h : source ∈ sources) :
    ∃ p ∈ listings serde pass n sources, p.1 = source := by
  induction sources generalizing n with
  | nil => cases h
  | cons s rest ih =>
    rcases List.mem_cons.mp h with rfl | h
    · exact ⟨_, List.mem_cons_self, rfl⟩
    · obtain ⟨p, hp, heq⟩ := @ih (n + 1) h
      exact ⟨p, List.mem_cons_of_mem _ hp, heq⟩

/-- A whole pass in which every source is fresh. -/
theorem progress_pass (htidy : Tidy sources (OpKeyCache.load file).keys)
    {lists : List (AuthsockSource × List OpKeyInfo)}
    (hlists : listings serde pass 0 sources = lists.map fun p => (p.1, some p.2))
    (hagreed : Agreed lists) (hinside : ∀ p ∈ lists, Inside p.1 p.2)
    (hfresh : AllFresh (discoverAllSources serde pass sources file).1) :
    ∃ made : List Made, made.map Made.result = (discoverAllSources serde pass sources file).1 ∧
      made.map Made.listed = lists ∧
        Progress (OpKeyCache.load file).keys made []
          (OpKeyCache.load (step serde sources file pass)).keys := by
  obtain ⟨made, hresults, hmade, old, new, hkeys, hprogress⟩ :=
    discoverSources_progress (List.append_nil _).symm (progress_start htidy.alike) hlists hagreed
      hinside hfresh
  rw [List.nil_append] at hprogress
  refine ⟨made, hresults, hmade, ?_⟩
  have hsources : ∀ source ∈ sources, ∃ f ∈ made, f.source = source := by
    intro source hsource
    obtain ⟨p, hp, heq⟩ := @mem_listings serde sources pass source 0 hsource
    rw [hlists, ← hmade, List.map_map] at hp
    obtain ⟨f, hf, rfl⟩ := List.mem_map.mp hp
    exact ⟨f, hf, heq⟩
  have hnone : old = [] := by
    apply List.eq_nil_iff_forall_not_mem.mpr
    intro e he
    obtain ⟨hstart, hnot⟩ := hprogress.before e he
    obtain ⟨source, hsource, howned⟩ := htidy.owned e hstart
    obtain ⟨f, hf, rfl⟩ := hsources source hsource
    rw [hnot f hf] at howned
    cases howned
  rw [load_step hfresh, hkeys, hnone, List.nil_append]
  rw [hnone] at hprogress
  exact hprogress

end Runs

section Settling

variable {start new : List CachedKey} {made : List Made}

/-- What the cache holds of a source is what the source has found. -/
theorem Progress.pruned (h : Progress start made [] new) (hagreed : Agreed (made.map Made.listed))
    {f : Made} (hf : f ∈ made) {e : CachedKey} (he : e ∈ new)
    (hbelongs : f.source.belongs e = true) : ∃ key ∈ f.keys, e = key.cached f.source.opAccount := by
  obtain ⟨g, hg, key, hkey, rfl⟩ := h.made e he
  obtain ⟨info, hinfo, publicKey, rfl⟩ := h.keys g hg key hkey
  rw [covers_found] at hbelongs
  have hmem := List.mem_map_of_mem (f := Made.listed) hf
  have hother := List.mem_map_of_mem (f := Made.listed) hg
  obtain ⟨listed, hlisted, hfp⟩ := hagreed.covered _ hother _ hmem info hinfo hbelongs
  obtain ⟨first, hfirst, hfirstfp⟩ :=
    @exists_mem_firsts _ _ _ OpKeyInfo.fingerprint listed [] f.infos hlisted (by simp)
  have haccount := account_of_covers hbelongs
  have hsame := hagreed.single _ hother _ hmem haccount info hinfo first hfirst
    (hfp.symm.trans hfirstfp.symm)
  obtain ⟨publicKey', hfound⟩ := h.found f hf first hfirst
  have hshown : publicKey = publicKey' := by
    refine h.alike _ he _ (h.kept f hf _ hfound) ?_
    exact hfp.symm.trans hfirstfp.symm
  refine ⟨_, hfound, ?_⟩
  rw [hshown, found_congr hsame publicKey']
  exact congrArg (fun account => DiscoveredKey.cached account _) haccount

theorem Progress.seed_perm (h : Progress start made [] new)
    (hagreed : Agreed (made.map Made.listed)) (hinside : ∀ f ∈ made, Inside f.source f.infos)
    (hshown : ∀ e ∈ new, e.publicKey ≠ "") {f : Made} (hf : f ∈ made) :
    (fallbackFrom f.source.opSources f.source.opAccount new []).Perm f.keys := by
  have hmem : ∀ e ∈ new.filter (eligible f.source.opSources f.source.opAccount),
      e ∈ new ∧ f.source.belongs e = true := by
    intro e he
    obtain ⟨hin, hholds⟩ := List.mem_filter.mp he
    unfold eligible at hholds
    rw [Bool.and_eq_true] at hholds
    exact ⟨hin, hholds.1⟩
  have hnodup : ((new.filter (eligible f.source.opSources f.source.opAccount)).map
      CachedKey.fingerprint).Nodup := by
    rw [List.Nodup, List.pairwise_map]
    refine (h.single.filter _).imp_of_mem ?_
    intro e e' he he' hne
    obtain ⟨key, -, rfl⟩ := h.pruned hagreed hf (hmem e he).1 (hmem e he).2
    obtain ⟨key', -, rfl⟩ := h.pruned hagreed hf (hmem e' he').1 (hmem e' he').2
    exact hne rfl
  rw [fallbackFrom_eq, firsts_eq_self hnodup (by simp)]
  have hleft : ((new.filter (eligible f.source.opSources f.source.opAccount)).map
      CachedKey.discovered).Nodup := by
    apply List.Nodup.of_map DiscoveredKey.fingerprint
    rw [List.map_map]
    exact hnodup
  rw [List.perm_ext_iff_of_nodup hleft (List.Nodup.of_map _ (h.nodup f hf))]
  intro key
  constructor
  · intro hkey
    obtain ⟨e, he, rfl⟩ := List.mem_map.mp hkey
    obtain ⟨key, hfound, rfl⟩ := h.pruned hagreed hf (hmem e he).1 (hmem e he).2
    exact hfound
  · intro hkey
    have hkept := h.kept f hf key hkey
    refine List.mem_map.mpr ⟨_, List.mem_filter.mpr ⟨hkept, ?_⟩, rfl⟩
    obtain ⟨info, hinfo, publicKey, rfl⟩ := h.keys f hf key hkey
    have hcovers := hinside f hf info hinfo
    have hnonempty := hshown _ hkept
    unfold eligible
    rw [Bool.and_eq_true, Bool.not_eq_true', ← Bool.not_eq_true, String.isEmpty_iff]
    exact ⟨hcovers, hnonempty⟩

/-- For which accounts and fingerprints the cache has an entry. -/
theorem Progress.mem_labels (h : Progress start made [] new)
    {label : Option CacheProvenance × String} :
    label ∈ new.map (fun e => (e.provenance, e.fingerprint)) ↔
      ∃ p ∈ made.map Made.listed, ∃ info ∈ leading p.2,
        label = (some ⟨p.1.opAccount⟩, info.fingerprint) := by
  constructor
  · intro hlabel
    obtain ⟨e, he, rfl⟩ := List.mem_map.mp hlabel
    obtain ⟨f, hf, key, hkey, rfl⟩ := h.made e he
    obtain ⟨info, hinfo, publicKey, rfl⟩ := h.keys f hf key hkey
    exact ⟨_, List.mem_map_of_mem hf, info, hinfo, rfl⟩
  · intro hlabel
    obtain ⟨p, hp, info, hinfo, rfl⟩ := hlabel
    obtain ⟨f, hf, rfl⟩ := List.mem_map.mp hp
    obtain ⟨publicKey, hfound⟩ := h.found f hf info hinfo
    exact List.mem_map.mpr ⟨_, h.kept f hf _ hfound, rfl⟩

theorem Progress.nodup_labels (h : Progress start made [] new) :
    (new.map fun e => (e.provenance, e.fingerprint)).Nodup := by
  rw [List.Nodup, List.pairwise_map]
  refine h.single.imp ?_
  intro e e' hne heq
  exact hne (congrArg Prod.fst heq) (congrArg Prod.snd heq)

/-- Two passes over the same lists leave as many entries. -/
theorem Progress.length_eq (h : Progress start made [] new) {start' new' : List CachedKey}
    {made' : List Made} (h' : Progress start' made' [] new')
    (hlists : made'.map Made.listed = made.map Made.listed) : new'.length = new.length := by
  have hperm : (new'.map fun e => (e.provenance, e.fingerprint)).Perm
      (new.map fun e => (e.provenance, e.fingerprint)) := by
    rw [List.perm_ext_iff_of_nodup h'.nodup_labels h.nodup_labels]
    intro label
    rw [h'.mem_labels, h.mem_labels, hlists]
  have hlength := hperm.length_eq
  rw [List.length_map, List.length_map] at hlength
  exact hlength

variable {serde : OpSerde} {sources : List AuthsockSource} {file : Option OpKeyCache}
  {pass : ℕ → OpClient}

/-- The lists of a pass in which every source is fresh meet the condition. -/
theorem agreed_of_fresh (horderly : Orderly serde sources pass)
    (hfresh : AllFresh (discoverAllSources serde pass sources file).1) :
    ∃ lists, listings serde pass 0 sources = lists.map (fun p => (p.1, some p.2)) ∧
      Agreed lists ∧ ∀ p ∈ lists, Inside p.1 p.2 := by
  obtain ⟨lists, hlists⟩ := listings_of_fresh hfresh
  have hagreed := horderly.agreed
  have hinside := horderly.inside
  rw [hlists, answered_map] at hagreed hinside
  refine ⟨lists, hlists, hagreed ?_, hinside⟩
  intro p hp
  obtain ⟨q, -, rfl⟩ := List.mem_map.mp hp
  rfl

theorem settles_pass (htidy : Tidy sources (OpKeyCache.load file).keys)
    (horderly : Orderly serde sources pass) : Settles serde sources file pass := by
  have hnext := tidy_step htidy horderly
  constructor
  · intro hfresh
    obtain ⟨lists, hlists, hagreed, hinside⟩ := agreed_of_fresh horderly hfresh
    obtain ⟨made, hresults, hmade, hprogress⟩ :=
      progress_pass htidy hlists hagreed hinside hfresh
    rw [← hmade] at hagreed hinside
    rw [← hresults]
    constructor
    · intro r hr
      obtain ⟨f, hf, rfl⟩ := List.mem_map.mp hr
      exact hprogress.seed_perm hagreed
        (fun g hg => hinside _ (List.mem_map_of_mem hg)) hnext.shown hf
    · intro r hr e he hbelongs
      obtain ⟨f, hf, rfl⟩ := List.mem_map.mp hr
      exact hprogress.pruned hagreed hf he hbelongs
    · exact hprogress.single
  · intro hfresh again hsame hagain
    obtain ⟨lists, hlists, hagreed, hinside⟩ := agreed_of_fresh horderly hfresh
    obtain ⟨made, -, hmade, hprogress⟩ := progress_pass htidy hlists hagreed hinside hfresh
    obtain ⟨made', -, hmade', hprogress'⟩ :=
      progress_pass hnext (hsame.trans hlists) hagreed hinside hagain
    exact hprogress.length_eq hprogress' (hmade'.trans hmade.symm)

end Settling

/-- In a run of passes that meet the condition, a pass in which every source is
fresh leaves the cache in order. -/
theorem passes_settle (serde : OpSerde) (sources : List AuthsockSource)
    (file : Option OpKeyCache) (htidy : Tidy sources (OpKeyCache.load file).keys)
    (passes : List (ℕ → OpClient))
    (horderly : ∀ pass ∈ passes, Orderly serde sources pass) :
    Along (step serde sources) (Settles serde sources) file passes := by
  apply along_of_invariant (step serde sources)
    (I := fun file => Tidy sources (OpKeyCache.load file).keys)
    (P := fun _ pass => Orderly serde sources pass)
  · exact fun _ _ h hp => tidy_step h hp
  · exact fun _ _ h hp => settles_pass h hp
  · exact along_of_mem _ _ _ horderly
  · exact htidy

namespace Laptop

def listJson : Bytes :=
  ("[\x7b\"id\":\"i1\",\"title\":\"laptop\",\"vault\":\x7b\"id\":\"v1\",\"name\":\"Private\"\x7d," ++
    "\"additional_information\":\"SHA256:a\"\x7d]").toUTF8.data.toList

def keyJson : Bytes := "\x7b\"value\":\"ssh-ed25519 AAAA\"\x7d".toUTF8.data.toList

/-- A reader of these two texts. -/
def serde : OpSerde where
  itemList _ := some [⟨"i1", "laptop", "v1", "Private", some "SHA256:a"⟩]
  fieldValue _ := some "ssh-ed25519 AAAA"

/-- One item in one vault, listed by the vault's name and by its identifier. -/
def pass (_ : ℕ) : OpClient where
  itemListJson _ _ := some listJson
  itemGetPublicKeyJson _ := some keyJson

def named (member : String) : List AuthsockSource := [⟨⟨none, none, none⟩, "laptop", [member]⟩]

end Laptop

namespace Overlapping

def laptop : OpItemListEntry := ⟨"i1", "laptop", "v1", "Private", some "SHA256:a"⟩

def server : OpItemListEntry := ⟨"i2", "server", "v2", "Shared", some "SHA256:b"⟩

/-- A reader of texts of a byte or two. -/
def serde : OpSerde where
  itemList
    | [] => some []
    | [1] => some [laptop]
    | [2] => some [server]
    | [1, 2] => some [laptop, server]
    | _ => none
  fieldValue json := if json = [1] then some "ssh-ed25519 AAAA" else some "ssh-ed25519 BBBB"

/-- One vault, and all of them. -/
def sources : List AuthsockSource :=
  [⟨⟨none, none, none⟩, "private", ["op://Private"]⟩, ⟨⟨none, none, none⟩, "all", ["op://"]⟩]

def publicKey (id : String) : Option Bytes := some (if id = "i1" then [1] else [2])

def first (_ : ℕ) : OpClient where
  itemListJson _ vault := if vault.isSome then some [1] else some [1, 2]
  itemGetPublicKeyJson := publicKey

/-- The laptop's item is gone. -/
def second (_ : ℕ) : OpClient where
  itemListJson _ vault := if vault.isSome then some [] else some [2]
  itemGetPublicKeyJson := publicKey

theorem shown (json : Bytes) : serde.fieldValue json ≠ some "" := by
  show (if json = [1] then some "ssh-ed25519 AAAA" else some "ssh-ed25519 BBBB") ≠ some ""
  split <;> decide

theorem orderly_first : Orderly serde sources first where
  inside := by decide
  agreed _ := ⟨by decide, by decide⟩
  shown _ _ _ _ _ _ json _ := shown json

theorem orderly_second : Orderly serde sources second where
  inside := by decide
  agreed _ := ⟨by decide, by decide⟩
  shown _ _ _ _ _ _ json _ := shown json

def fingerprints (passes : List (ℕ → OpClient)) : List String :=
  (OpKeyCache.load (run (step serde sources) none passes)).keys.map CachedKey.fingerprint

end Overlapping

theorem passes_settle_overlapping :
    Along (step Overlapping.serde Overlapping.sources)
        (Settles Overlapping.serde Overlapping.sources) none
        [Overlapping.first, Overlapping.first, Overlapping.second] ∧
      Overlapping.fingerprints [Overlapping.first, Overlapping.first] = ["SHA256:a", "SHA256:b"] ∧
      Overlapping.fingerprints [Overlapping.first, Overlapping.first, Overlapping.second] =
        ["SHA256:b"] := by
  refine ⟨passes_settle Overlapping.serde Overlapping.sources none tidy_nil _ ?_, by decide,
    by decide⟩
  intro pass hpass
  simp only [List.mem_cons, List.not_mem_nil, or_false] at hpass
  rcases hpass with rfl | rfl | rfl
  · exact Overlapping.orderly_first
  · exact Overlapping.orderly_first
  · exact Overlapping.orderly_second

/-- What is found in a vault that is named by its identifier is given back to no
source. -/
theorem vault_by_id_not_seeded :
    ¬ Along (step Laptop.serde (Laptop.named "op://v1"))
      (Settles Laptop.serde (Laptop.named "op://v1")) none [Laptop.pass] := by
  intro h
  have hseeds := (h.1.seeded (by decide)).seeds _ List.mem_cons_self
  exact absurd hseeds.length_eq (by decide)

end OpDiscovery

end CacheWarden
