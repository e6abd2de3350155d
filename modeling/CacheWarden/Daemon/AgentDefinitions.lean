import CacheWarden.Daemon.Startup
import CacheWarden.Authsock.Discovery

/-!
# Definitions of the agent's keys

A key discovered in a vault is defined in the store so that the first signature
can fetch it. Startup does so for the keys each socket is seeded with, and every
discovery after it for those it found. A key that has a definition already keeps
it: on a cold start that is an earlier discovery's, after a graceful restart it
may be one that was handed over.
-/

set_option autoImplicit false

namespace CacheWarden

namespace Daemon

open Store

/-- The definition an agent key stands for, when it is fetched and its windows
are in order. -/
def opDefinition (key : RegisteredKey) : Option Definition :=
  match key.source with
  | .local => none
  | .op argv softTtlSecs hardTtlSecs =>
    (Ttl.new (softTtlSecs.map Duration.fromSecs) (hardTtlSecs.map Duration.fromSecs)).toOption.map
      fun ttl => ⟨.command argv none ∅, ttl, ValueMeta.new, SourceMeta.new, rfl⟩

def registerOpDefinition (store : Store) (key : RegisteredKey) : Store :=
  match key.source with
  | .local => store
  | .op argv softTtlSecs hardTtlSecs =>
    match Ttl.new (softTtlSecs.map Duration.fromSecs) (hardTtlSecs.map Duration.fromSecs) with
    | .error _ => store
    | .ok ttl =>
      (store.defineWithMeta key.kvKey (.command argv none ∅) ttl ValueMeta.new SourceMeta.new).2

/-- `register_op_definitions`: a key that has a definition keeps it. -/
def registerOpDefinitions (store : Store) (registry : PublicKeyRegistry) : Store :=
  registry.allKeys.foldl registerOpDefinition store

/-- A configured socket: its local keys, and what it is seeded with. -/
structure AgentSocket where
  keys : List String
  seed : Refresh

/-- What the agent brings to the startup of a process: its sockets, and the
discoveries that follow, each for one of them. -/
structure Agent where
  ssh : SshKeys
  sockets : List AgentSocket
  discoveries : List (ℕ × Refresh)
  clock : Clock

/-- `spawn_listeners`, for one socket, as far as it concerns the store and the
registry. -/
def bindSocket (ssh : SshKeys) (clock : Clock) (store : Store) (socket : AgentSocket) :
    DiscoveryTarget × Store :=
  let (base, store) := buildRegistry ssh socket.keys store store.controlCap clock
  let registry := opRegistryFrom ssh base socket.seed.exe socket.seed.source socket.seed.keys
  (⟨base, registry⟩, registerOpDefinitions store registry)

def bindSockets (ssh : SshKeys) (clock : Clock) :
    List AgentSocket → Store → List DiscoveryTarget × Store
  | [], store => ([], store)
  | socket :: sockets, store =>
    let (target, store) := bindSocket ssh clock store socket
    let (targets, store) := bindSockets ssh clock sockets store
    (target :: targets, store)

def discover (ssh : SshKeys) (self : List DiscoveryTarget × Store) (event : ℕ × Refresh) :
    List DiscoveryTarget × Store :=
  match self.1[event.1]? with
  | none => self
  | some target =>
    let target := target.applyDiscovery ssh event.2
    (self.1.set event.1 target, registerOpDefinitions self.2 target.live)

/-- The agent over the store that the startup task leaves. -/
def Agent.start (self : Agent) (store : Store) : List DiscoveryTarget × Store :=
  self.discoveries.foldl (discover self.ssh) (bindSockets self.ssh self.clock self.sockets store)

section RegisterOp

variable {store : Store} {k : String}

/-- The definition that the first key of the list under this store key gives. -/
def firstOp (keys : List RegisteredKey) (k : String) : Option Definition :=
  keys.findSome? fun key => if key.kvKey = k then opDefinition key else none

theorem registerOpDefinition_eq (store : Store) (key : RegisteredKey) :
    registerOpDefinition store key =
      match opDefinition key with
      | some d => (store.defineWithMeta key.kvKey d.source d.ttl d.valueMeta d.sourceMeta).2
      | none => store := by
  unfold registerOpDefinition opDefinition
  cases key.source with
  | «local» => rfl
  | op argv softTtlSecs hardTtlSecs =>
    simp only
    cases Ttl.new (softTtlSecs.map Duration.fromSecs) (hardTtlSecs.map Duration.fromSecs) <;> rfl

theorem registerOpDefinition_definition (hvalid : ValidKey k) (key : RegisteredKey) :
    (registerOpDefinition store key).definitions[k]? =
      (store.definitions[k]?).or (if key.kvKey = k then opDefinition key else none) := by
  rw [registerOpDefinition_eq]
  cases opDefinition key with
  | none => simp
  | some d => exact congrArg KeySlice.definition (defineWithMeta_slice store key.kvKey d k hvalid)

theorem registerAll_definition (hvalid : ValidKey k) (keys : List RegisteredKey) (store : Store) :
    (keys.foldl registerOpDefinition store).definitions[k]? =
      (store.definitions[k]?).or (firstOp keys k) := by
  induction keys generalizing store with
  | nil => simp [firstOp]
  | cons key keys ih =>
    rw [List.foldl_cons, ih, registerOpDefinition_definition hvalid, Option.or_assoc]
    unfold firstOp
    rw [List.findSome?_cons]
    cases (if key.kvKey = k then opDefinition key else none) <;> rfl

/-- The keys that a discovery lays over the base share a definition where they
share a store key. -/
theorem opDefinition_congr {ssh : SshKeys} {r : Refresh} {a b : RegisteredKey}
    (ha : a ∈ r.entries ssh) (hb : b ∈ r.entries ssh) (h : a.kvKey = b.kvKey) :
    opDefinition a = opDefinition b := by
  obtain ⟨exe, hexe, key, -, hkey⟩ := mem_entries.mp ha
  obtain ⟨exe', hexe', key', -, hkey'⟩ := mem_entries.mp hb
  rw [hexe] at hexe'
  cases hexe'
  have hsame : key.itemId = key'.itemId ∧ a.source = .op (privateKeyArgv exe key.itemId
      r.source.opAccount) r.source.softTtlSecs r.source.hardTtlSecs ∧
      b.source = .op (privateKeyArgv exe key'.itemId r.source.opAccount) r.source.softTtlSecs
        r.source.hardTtlSecs := by
    unfold opEntry at hkey hkey'
    obtain ⟨kvKey, hid, hmap⟩ := Option.bind_eq_some_iff.mp hkey
    obtain ⟨_, -, rfl⟩ := Option.map_eq_some_iff.mp hmap
    obtain ⟨kvKey', hid', hmap'⟩ := Option.bind_eq_some_iff.mp hkey'
    obtain ⟨_, -, rfl⟩ := Option.map_eq_some_iff.mp hmap'
    cases h
    exact ⟨opKvKey_injective hid hid', rfl, rfl⟩
  unfold opDefinition
  rw [hsame.2.1, hsame.2.2, hsame.1]

theorem opDefinition_local {key : RegisteredKey} (h : key.source = .local) :
    opDefinition key = none := by
  unfold opDefinition
  rw [h]

/-- Only the keys that a discovery serves are defined, whatever the base. -/
theorem serves_of_defined {ssh : SshKeys} {target : DiscoveryTarget} (hbase : LocalKeys target.base)
    {r : Refresh} {key : RegisteredKey} {d : Definition}
    (hkey : key ∈ (target.applyDiscovery ssh r).live.allKeys) (hd : opDefinition key = some d) :
    r.Serves ssh key := by
  obtain ⟨b, hb⟩ := PublicKeyRegistry.mem_allKeys.mp hkey
  rw [lookup_applyDiscovery] at hb
  rcases hover : overlaid (r.entries ssh) b with _ | laid
  · rw [hover, Option.none_or] at hb
    rw [opDefinition_local (hbase b key hb).1] at hd
    cases hd
  · rw [hover] at hb
    cases hb
    obtain ⟨-, rfl⟩ := overlaid_mem hover
    exact hover

theorem mem_allKeys_of_serves {ssh : SshKeys} (target : DiscoveryTarget) {r : Refresh}
    {key : RegisteredKey} (h : r.Serves ssh key) :
    key ∈ (target.applyDiscovery ssh r).live.allKeys := by
  refine PublicKeyRegistry.mem_allKeys.mpr ⟨key.keyBlob, ?_⟩
  rw [lookup_applyDiscovery, show overlaid (r.entries ssh) key.keyBlob = some key from h]
  rfl

theorem firstOp_iff {ssh : SshKeys} {target : DiscoveryTarget} (hbase : LocalKeys target.base)
    (r : Refresh) (d : Definition) :
    firstOp (target.applyDiscovery ssh r).live.allKeys k = some d ↔
      ∃ entry, r.Serves ssh entry ∧ entry.kvKey = k ∧ opDefinition entry = some d := by
  constructor
  · intro h
    obtain ⟨key, hkey, hd⟩ := List.exists_of_findSome?_eq_some h
    split at hd
    · rename_i hk
      exact ⟨key, serves_of_defined hbase hkey hd, hk, hd⟩
    · cases hd
  · rintro ⟨entry, hserves, hk, hd⟩
    have hmem := mem_allKeys_of_serves target hserves
    rcases hfirst : firstOp (target.applyDiscovery ssh r).live.allKeys k with _ | d'
    · have hnone := List.findSome?_eq_none_iff.mp hfirst entry hmem
      rw [if_pos hk, hd] at hnone
      cases hnone
    · obtain ⟨key, hkey, hd'⟩ := List.exists_of_findSome?_eq_some hfirst
      split at hd'
      · rename_i hkey'
        have hserves' := serves_of_defined hbase hkey hd'
        rw [← hd', ← hd]
        exact opDefinition_congr (overlaid_mem hserves').1 (overlaid_mem hserves).1
          (hkey'.trans hk.symm)
      · cases hd'

/-- The definition a discovery result gives a key. -/
def discovered (ssh : SshKeys) (r : Refresh) (k : String) : Option Definition :=
  firstOp (opRegistryFrom ssh PublicKeyRegistry.new r.exe r.source r.keys).allKeys k

theorem firstOp_eq_discovered {ssh : SshKeys} {target : DiscoveryTarget}
    (hbase : LocalKeys target.base) (r : Refresh) :
    firstOp (target.applyDiscovery ssh r).live.allKeys k = discovered ssh r k := by
  apply Option.ext
  intro d
  rw [firstOp_iff hbase]
  have hnew := @firstOp_iff k ssh ⟨PublicKeyRegistry.new, PublicKeyRegistry.new⟩ localKeys_new r d
  exact hnew.symm

end RegisterOp

section Agent

variable {store : Store} {k : String}

theorem buildRegistry_definitions (ssh : SshKeys) (keys : List String) (store : Store)
    (cap : Capability) (clock : Clock) :
    (buildRegistry ssh keys store cap clock).2.definitions = store.definitions := by
  have hgo : ∀ (keys : List String) (registry : PublicKeyRegistry) (store : Store) (clock : Clock),
      (buildRegistry.go ssh cap registry keys store clock).2.definitions = store.definitions := by
    intro keys
    induction keys with
    | nil =>
      intro registry store clock
      rfl
    | cons kvKey keys ih =>
      intro registry store clock
      have hget : (store.get kvKey cap (clock.now 0)).2.definitions = store.definitions := by
        unfold Store.get
        cases store.checkCap cap with
        | error e => rfl
        | ok _ => cases store.entries[kvKey]? <;> rfl
      unfold buildRegistry.go
      dsimp only
      split <;> rw [ih, hget]
  exact hgo keys _ store clock

/-- The definition that the first of several discovery results gives a key. -/
def firstDiscovered (ssh : SshKeys) (refreshes : List Refresh) (k : String) : Option Definition :=
  refreshes.findSome? (discovered ssh · k)

theorem firstDiscovered_cons (ssh : SshKeys) (r : Refresh) (refreshes : List Refresh) :
    firstDiscovered ssh (r :: refreshes) k =
      (discovered ssh r k).or (firstDiscovered ssh refreshes k) := by
  unfold firstDiscovered
  rw [List.findSome?_cons]
  cases discovered ssh r k <;> rfl

theorem bindSocket_spec (hvalid : ValidKey k) (ssh : SshKeys) (clock : Clock) (store : Store)
    (socket : AgentSocket) :
    LocalKeys (bindSocket ssh clock store socket).1.base ∧
      (bindSocket ssh clock store socket).2.definitions[k]? =
        (store.definitions[k]?).or (discovered ssh socket.seed k) := by
  have hbase := localKeys_buildRegistry ssh socket.keys store store.controlCap clock
  refine ⟨hbase, ?_⟩
  unfold bindSocket registerOpDefinitions
  dsimp only
  rw [registerAll_definition hvalid, buildRegistry_definitions]
  exact congrArg (store.definitions[k]?).or
    (@firstOp_eq_discovered _ ssh ⟨_, PublicKeyRegistry.new⟩ hbase socket.seed)

theorem bindSockets_spec (hvalid : ValidKey k) (ssh : SshKeys) (clock : Clock)
    (sockets : List AgentSocket) (store : Store) :
    (∀ target ∈ (bindSockets ssh clock sockets store).1, LocalKeys target.base) ∧
      (bindSockets ssh clock sockets store).1.length = sockets.length ∧
      (bindSockets ssh clock sockets store).2.definitions[k]? =
        (store.definitions[k]?).or (firstDiscovered ssh (sockets.map AgentSocket.seed) k) := by
  induction sockets generalizing store with
  | nil => simp [bindSockets, firstDiscovered]
  | cons socket sockets ih =>
    obtain ⟨hbase, hbound⟩ := bindSocket_spec hvalid ssh clock store socket
    obtain ⟨hbases, hlength, hrest⟩ := ih (bindSocket ssh clock store socket).2
    refine ⟨List.forall_mem_cons.mpr ⟨hbase, hbases⟩, congrArg (· + 1) hlength, ?_⟩
    rw [List.map_cons, firstDiscovered_cons, ← Option.or_assoc, ← hbound]
    exact hrest

/-- The discoveries that reach a socket. -/
def reaching (n : ℕ) (discoveries : List (ℕ × Refresh)) : List Refresh :=
  (discoveries.filter (·.1 < n)).map (·.2)

theorem discoverAll_definition (hvalid : ValidKey k) (ssh : SshKeys)
    (discoveries : List (ℕ × Refresh)) (self : List DiscoveryTarget × Store)
    (hbases : ∀ target ∈ self.1, LocalKeys target.base) :
    (discoveries.foldl (discover ssh) self).2.definitions[k]? =
      (self.2.definitions[k]?).or (firstDiscovered ssh (reaching self.1.length discoveries) k) := by
  induction discoveries generalizing self with
  | nil => simp [reaching, firstDiscovered]
  | cons event discoveries ih =>
    obtain ⟨i, r⟩ := event
    rw [List.foldl_cons]
    by_cases hi : i < self.1.length
    · have htarget := hbases _ (List.getElem_mem hi)
      have hstep : discover ssh self (i, r) =
          (self.1.set i (self.1[i].applyDiscovery ssh r),
            registerOpDefinitions self.2 (self.1[i].applyDiscovery ssh r).live) := by
        unfold discover
        rw [List.getElem?_eq_getElem hi]
      have hbases' : ∀ target ∈ (discover ssh self (i, r)).1, LocalKeys target.base := by
        intro target hmem
        rw [hstep] at hmem
        rcases List.mem_or_eq_of_mem_set hmem with hmem | rfl
        · exact hbases target hmem
        · exact htarget
      have hreach : reaching self.1.length ((i, r) :: discoveries) =
          r :: reaching self.1.length discoveries := by
        simp [reaching, hi]
      rw [ih _ hbases', hreach, firstDiscovered_cons, ← Option.or_assoc, hstep, List.length_set]
      unfold registerOpDefinitions
      rw [registerAll_definition hvalid, firstOp_eq_discovered htarget]
    · have hstep : discover ssh self (i, r) = self := by
        unfold discover
        rw [List.getElem?_eq_none (by simpa using hi)]
      have hreach : reaching self.1.length ((i, r) :: discoveries) =
          reaching self.1.length discoveries := by
        simp [reaching, hi]
      rw [hstep, ih self hbases, hreach]

/-- Every discovery result the agent registers: the seeds, then what was found
for a socket it has. -/
def Agent.refreshes (self : Agent) : List Refresh :=
  self.sockets.map AgentSocket.seed ++ reaching self.sockets.length self.discoveries

theorem agent_definition (hvalid : ValidKey k) (agent : Agent) (store : Store) :
    (agent.start store).2.definitions[k]? =
      (store.definitions[k]?).or (firstDiscovered agent.ssh agent.refreshes k) := by
  obtain ⟨hbases, hlength, hbound⟩ :=
    bindSockets_spec hvalid agent.ssh agent.clock agent.sockets store
  unfold Agent.start Agent.refreshes
  rw [discoverAll_definition hvalid agent.ssh agent.discoveries _ hbases, hbound, hlength,
    Option.or_assoc]
  unfold firstDiscovered
  rw [List.findSome?_append]

end Agent

section Invalid

variable {store : Store} {k : String}

theorem registerAll_invalid (hk : ¬ ValidKey k) (keys : List RegisteredKey) (store : Store) :
    (keys.foldl registerOpDefinition store).definitions[k]? = store.definitions[k]? := by
  induction keys generalizing store with
  | nil => rfl
  | cons key keys ih =>
    rw [List.foldl_cons, ih, registerOpDefinition_eq]
    cases opDefinition key with
    | none => rfl
    | some d => exact defineWithMeta_invalid hk store _ _ _ _ _

theorem bindSockets_invalid (hk : ¬ ValidKey k) (ssh : SshKeys) (clock : Clock)
    (sockets : List AgentSocket) (store : Store) :
    (bindSockets ssh clock sockets store).2.definitions[k]? = store.definitions[k]? := by
  induction sockets generalizing store with
  | nil => rfl
  | cons socket sockets ih =>
    have hbound : (bindSocket ssh clock store socket).2.definitions[k]? =
        store.definitions[k]? := by
      unfold bindSocket registerOpDefinitions
      dsimp only
      rw [registerAll_invalid hk, buildRegistry_definitions]
    exact (ih _).trans hbound

theorem agent_invalid (hk : ¬ ValidKey k) (agent : Agent) (store : Store) :
    (agent.start store).2.definitions[k]? = store.definitions[k]? := by
  have hdiscover : ∀ (discoveries : List (ℕ × Refresh)) (self : List DiscoveryTarget × Store),
      (discoveries.foldl (discover agent.ssh) self).2.definitions[k]? =
        self.2.definitions[k]? := by
    intro discoveries
    induction discoveries with
    | nil => exact fun _ => rfl
    | cons event discoveries ih =>
      intro self
      rw [List.foldl_cons, ih]
      unfold discover
      split
      · rfl
      · exact registerAll_invalid hk _ _
  exact (hdiscover agent.discoveries _).trans (bindSockets_invalid hk agent.ssh agent.clock _ _)

end Invalid

section Graceful

/-- A cold start: the configuration, the file and the agent over an empty store. -/
def coldStart (st : Startup) (agent : Agent) (builder : StoreBuilder) (token : BitVec 128) :
    Store :=
  (agent.start (reconcile st (builder.build token).store)).2

/-- A graceful restart: the same over the store that was handed over, or over an
empty one where the handover failed. -/
def gracefulStart (st : Startup) (agent : Agent) (builder : StoreBuilder) (token : BitVec 128)
    (imported : Except HandoffError StoreBundle) : Store :=
  match imported with
  | .ok bundle => (agent.start (reconcile st bundle.store)).2
  | .error _ => coldStart st agent builder token

/-- A store key under which some discovery serves a key. -/
def Agent.OpKey (agent : Agent) (k : String) : Prop :=
  ∃ r ∈ agent.refreshes, ∃ entry, r.Serves agent.ssh entry ∧ entry.kvKey = k

/-- What the file, or else the discoveries, define a key as. -/
def current (st : Startup) (agent : Agent) (k : String) : Option Definition :=
  match st.persisted with
  | .loaded persisted => (registered persisted k).or (firstDiscovered agent.ssh agent.refreshes k)
  | _ => firstDiscovered agent.ssh agent.refreshes k

/-- The definition handed over for an agent key is the current one, unless the
configuration or the purge removes it first. -/
def CarriesCurrent (st : Startup) (agent : Agent) (store : Store) : Prop :=
  ∀ k, agent.OpKey k → k ∉ st.configNames → outlastsPurge st k = true →
    ∀ d, store.definitions[k]? = some d → current st agent k = some d

variable {st : Startup} {agent : Agent} {k : String}

theorem validKey_of_opKey (h : agent.OpKey k) : ValidKey k := by
  obtain ⟨r, -, entry, hserves, rfl⟩ := h
  obtain ⟨exe, -, key, -, hop⟩ := mem_entries.mp (overlaid_mem hserves).1
  unfold opEntry at hop
  obtain ⟨kvKey, hid, hmap⟩ := Option.bind_eq_some_iff.mp hop
  obtain ⟨_, -, rfl⟩ := Option.map_eq_some_iff.mp hmap
  exact validKey_of_opKvKey hid

/-- The definition of a key after startup, when the configuration lacks it: the
one that was there, unless the purge takes it, and else the current one. -/
theorem started_definition (hvalid : ValidKey k) (hk : k ∉ st.configNames) (store : Store) :
    (agent.start (reconcile st store)).2.definitions[k]? =
      if outlastsPurge st k = true then
        (store.definitions[k]?).or (current st agent k)
      else current st agent k := by
  rw [agent_definition hvalid, reconcile_definition hvalid, if_neg hk]
  unfold current outlastsPurge
  cases hp : st.persisted with
  | disabled | unreadable => simp
  | loaded persisted =>
    by_cases hmem : k ∈ persisted.map KvDefinition.key
    · simp only [hmem, decide_true, if_true, Option.or_assoc]
    · simp [hmem, registered_of_not_mem hmem]

theorem configured_agrees (hk : k ∈ st.configNames) (store store' : Store) :
    (agent.start (reconcile st store)).2.definitions[k]? =
      (agent.start (reconcile st store')).2.definitions[k]? := by
  by_cases hvalid : ValidKey k
  · rw [agent_definition hvalid, agent_definition hvalid, reconcile_definition hvalid,
      reconcile_definition hvalid, if_pos hk, if_pos hk]
  · rw [agent_invalid hvalid, agent_invalid hvalid, reconcile_invalid hvalid st (.inl hk),
      reconcile_invalid hvalid st (.inl hk)]

theorem started_agree_iff (store store' : Store) (hempty : store'.definitions = ∅) :
    (∀ k, k ∈ st.configNames ∨ agent.OpKey k →
        (agent.start (reconcile st store)).2.definitions[k]? =
          (agent.start (reconcile st store')).2.definitions[k]?) ↔
      CarriesCurrent st agent store := by
  constructor
  · intro h k hop hk hlisted d hd
    have hsame := h k (.inr hop)
    rw [started_definition (validKey_of_opKey hop) hk, started_definition (validKey_of_opKey hop) hk,
      if_pos hlisted, if_pos hlisted, hd, hempty, KeyMap.get_empty] at hsame
    exact hsame.symm
  · intro h k hkey
    by_cases hk : k ∈ st.configNames
    · exact configured_agrees hk store store'
    · have hop := hkey.resolve_left hk
      rw [started_definition (validKey_of_opKey hop) hk,
        started_definition (validKey_of_opKey hop) hk, hempty, KeyMap.get_empty]
      by_cases hlisted : outlastsPurge st k = true
      · rw [if_pos hlisted, if_pos hlisted]
        rcases hd : store.definitions[k]? with _ | d
        · rfl
        · rw [h k hop hk hlisted d hd]
          rfl
      · rw [if_neg hlisted, if_neg hlisted]

/-- For every old store, configuration, file and discovery result: each key of
the configuration and each agent key has the definition a cold start gives it,
exactly when what was handed over for an agent key is its current definition or
is removed before. -/
theorem graceful_definitions_iff (st : Startup) (agent : Agent) (s : Store) (clock : Clock)
    (wallE : UInt64) (builder : StoreBuilder) (token : BitVec 128) (nowI : Monotonic)
    (wallI : UInt64) :
    (∀ k, k ∈ st.configNames ∨ agent.OpKey k →
        (gracefulStart st agent builder token
          (s.handOver clock wallE builder token nowI wallI)).definitions[k]? =
          (coldStart st agent builder token).definitions[k]?) ↔
      ∀ bundle, s.handOver clock wallE builder token nowI wallI = .ok bundle →
        CarriesCurrent st agent bundle.store := by
  rcases hover : s.handOver clock wallE builder token nowI wallI with e | bundle
  · simp [gracefulStart]
  · simp only [Except.ok.injEq, forall_eq']
    exact started_agree_iff bundle.store _ rfl

end Graceful

namespace StaleOp

/-- The agent of `Collision.refresh`, without local keys. -/
def agent : Agent where
  ssh := Collision.oneKey
  sockets := [⟨[], Collision.refresh⟩]
  discoveries := []
  clock := Clock.constant Monotonic.zero

/-- The store of a process whose source had a soft window of an hour. -/
def oldStore : Store :=
  registerOpDefinition (Store.newWithToken 0 Duration.zero)
    ⟨[7], "laptop", "authsock/op_item1",
      .op ["cache-warden", "__authsock-op-private-key", "item1"] (some 3600) none⟩

def handover : Except HandoffError StoreBundle :=
  oldStore.handOver (Clock.constant Monotonic.zero) 0 ⟨Duration.zero⟩ 0 Monotonic.zero 0

theorem handover_ok : ∃ bundle, handover = .ok bundle := by
  have hok : handover.toOption.isSome := by decide
  cases h : handover with
  | error e =>
    rw [h] at hok
    cases hok
  | ok bundle => exact ⟨bundle, rfl⟩

theorem oldStore_soft :
    (oldStore.definitions["authsock/op_item1"]?).map (·.ttl.soft) =
      some (some (Duration.fromSecs 3600)) := by decide

theorem current_soft :
    (current (plainStartup []) agent "authsock/op_item1").map (·.ttl.soft) = some none := by decide

theorem agent_opKey : agent.OpKey "authsock/op_item1" := by
  refine ⟨Collision.refresh, List.mem_cons_self, ⟨[7], "laptop", "authsock/op_item1",
    .op ["cache-warden", "__authsock-op-private-key", "item1"] none none⟩, ?_, rfl⟩
  unfold Refresh.Serves
  decide

/-- The window was dropped from the configuration, persistence is off, and the
window of the old process is still the one registered. -/
theorem stale_definition_wins :
    ¬ ∀ k, k ∈ (plainStartup []).configNames ∨ agent.OpKey k →
      (gracefulStart (plainStartup []) agent ⟨Duration.zero⟩ 0 handover).definitions[k]? =
        (coldStart (plainStartup []) agent ⟨Duration.zero⟩ 0).definitions[k]? := by
  obtain ⟨bundle, hbundle⟩ := handover_ok
  rw [hbundle]
  intro h
  have hcurrent := (started_agree_iff bundle.store _ rfl).mp h
  obtain ⟨d, hd, hsoft⟩ := Option.map_eq_some_iff.mp oldStore_soft
  obtain ⟨d', hd', -, hsoft', -⟩ := handOver_definition hbundle hd
  have hkept := current_soft
  rw [hcurrent _ agent_opKey (by decide) rfl d' hd', Option.map_some, hsoft', hsoft] at hkept
  cases hkept

end StaleOp

end Daemon

end CacheWarden
