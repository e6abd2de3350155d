import CacheWarden.Daemon.Wire
import CacheWarden.Handoff

/-!
# Definitions at startup

A process that took a store over from its predecessor reconciles the definitions
in it with its own configuration and with the file of persisted definitions. The
values stay; what else of a key goes with its definition is worked out here.
-/

set_option autoImplicit false

namespace CacheWarden

namespace Daemon

open Store

def defaultNamespace : String := "default"

def compose (ns key : String) : String := ns ++ "/" ++ key

/-- A definition of the configuration, or of the file of persisted ones. -/
structure KvDefinition where
  name : String
  pinnedNamespace : Option String
  source : SourceSpecWire
  softTtlSecs : Option UInt64
  hardTtlSecs : Option UInt64
  preload : Bool
  valueMeta : ValueMetaWire
  deriving DecidableEq

namespace KvDefinition

def fullKey (self : KvDefinition) (ctxNs : String) : String :=
  compose (self.pinnedNamespace.getD ctxNs) self.name

def key (self : KvDefinition) : String := self.fullKey defaultNamespace

def ttl (self : KvDefinition) : Except TtlError Ttl :=
  Ttl.new (self.softTtlSecs.map Duration.fromSecs) (self.hardTtlSecs.map Duration.fromSecs)

/-- The definition an entry stands for, once its windows are in order. -/
def declares (self : KvDefinition) (ttl : Ttl) : Definition where
  source := self.source.lower
  ttl := ttl
  valueMeta := metaFromWire self.valueMeta
  sourceMeta := self.source.toSourceMeta
  regenerable := self.source.lower_regenerable

end KvDefinition

/-- Run a source as the runner sees it: its arguments, directory and variables. -/
def runSource (runner : SourceRunner) : ValueSource → Except RunError Bytes
  | .command argv cwd env => runner argv cwd env
  | .static => runner [] none ∅

def clearConfigOwnedDefinitions (configNames : List String) (store : Store) : Store :=
  configNames.foldl (fun store key => (store.undefine key).2) store

/-- Register one definition of the configuration, and run its command if it is
eager and nothing was handed over for it. -/
def registerDefinition (runner : SourceRunner) (forceEager alreadyLoaded : List String)
    (now : Monotonic) (store : Store) (entry : KvDefinition) : Store :=
  match entry.ttl with
  | .error _ => store
  | .ok ttl =>
    match store.defineWithMeta entry.key entry.source.lower ttl (metaFromWire entry.valueMeta)
      entry.source.toSourceMeta with
    | (.error _, store) => store
    | (.ok (), store) =>
      if (entry.preload || entry.key ∈ forceEager) && entry.key ∉ alreadyLoaded then
        match runSource runner entry.source.lower with
        | .ok value =>
          (store.set entry.key entry.source.lower value ttl store.controlCap now).2
        | .error _ => store
      else store

def registerDefinitions (runner : SourceRunner) (forceEager alreadyLoaded : List String)
    (clock : Clock) : ℕ → List KvDefinition → Store → Store
  | _, [], store => store
  | i, entry :: rest, store =>
    registerDefinitions runner forceEager alreadyLoaded clock (i + 1) rest
      (registerDefinition runner forceEager alreadyLoaded (clock.now i) store entry)

/-- Restore one persisted definition, unless the configuration has the key. -/
def restorePersistedDefinition (configNames : List String) (store : Store) (entry : KvDefinition) :
    Store :=
  if entry.key ∈ configNames then store
  else
    match entry.ttl with
    | .error _ => store
    | .ok ttl =>
      (store.defineWithMeta entry.key entry.source.lower ttl (metaFromWire entry.valueMeta)
        entry.source.toSourceMeta).2

def restorePersistedDefinitions (configNames : List String) (persisted : List KvDefinition)
    (store : Store) : Store :=
  persisted.foldl (restorePersistedDefinition configNames) store

/-- Remove every definition that neither the configuration nor the file has. -/
def purgeStaleImportDefinitions (configNames persistedNames : List String) (store : Store) :
    List String × Store :=
  let stale := store.definitions.keys.filter fun key => key ∉ configNames ++ persistedNames
  (stale, stale.foldl (fun store key => (store.undefine key).2) store)

/-- The file of persisted definitions, as startup finds it. -/
inductive PersistedDefinitions where
  | disabled
  | unreadable
  | loaded (definitions : List KvDefinition)

/-- What a new process brings to its startup. -/
structure Startup where
  config : List KvDefinition
  persisted : PersistedDefinitions
  runner : SourceRunner
  forceEager : List String
  clock : Clock

def Startup.configNames (st : Startup) : List String := st.config.map KvDefinition.key

/-- The startup task, over the store the process begins with. -/
def reconcile (st : Startup) (store : Store) : Store :=
  let alreadyLoaded := store.entries.keys
  let registered := registerDefinitions st.runner st.forceEager alreadyLoaded st.clock 0 st.config
    (clearConfigOwnedDefinitions st.configNames store)
  match st.persisted with
  | .disabled => registered
  | .unreadable => registered
  | .loaded definitions =>
    (purgeStaleImportDefinitions st.configNames (definitions.map KvDefinition.key)
      (restorePersistedDefinitions st.configNames definitions registered)).2

section Kept

variable {P : Store → Prop}
  (hdefine : ∀ store key source ttl valueMeta sourceMeta, P store →
    P (store.defineWithMeta key source ttl valueMeta sourceMeta).2)

include hdefine

/-- What definitions and sets keep, the registering of the configuration keeps. -/
theorem kept_registerDefinitions
    (hset : ∀ store key source value ttl cap now, P store →
      P (store.set key source value ttl cap now).2)
    (runner : SourceRunner) (forceEager alreadyLoaded : List String) (clock : Clock)
    (entries : List KvDefinition) (i : ℕ) {store : Store} (h : P store) :
    P (registerDefinitions runner forceEager alreadyLoaded clock i entries store) := by
  induction entries generalizing i store with
  | nil => exact h
  | cons entry rest ih =>
    apply ih
    unfold registerDefinition
    cases entry.ttl with
    | error e => exact h
    | ok ttl =>
      have hdefined := hdefine store entry.key entry.source.lower ttl
        (metaFromWire entry.valueMeta) entry.source.toSourceMeta h
      simp only
      split
      · rename_i after heq
        rw [heq] at hdefined
        exact hdefined
      · rename_i after heq
        rw [heq] at hdefined
        split
        · split
          · exact hset _ _ _ _ _ _ _ hdefined
          · exact hdefined
        · exact hdefined

theorem kept_restorePersisted (configNames : List String) (persisted : List KvDefinition)
    {store : Store} (h : P store) :
    P (restorePersistedDefinitions configNames persisted store) := by
  unfold restorePersistedDefinitions
  induction persisted generalizing store with
  | nil => exact h
  | cons entry rest ih =>
    rw [List.foldl_cons]
    apply ih
    unfold restorePersistedDefinition
    split
    · exact h
    split
    · exact h
    · exact hdefine _ _ _ _ _ _ h

/-- What definitions, sets and their removal keep, startup keeps. -/
theorem kept_reconcile
    (hset : ∀ store key source value ttl cap now, P store →
      P (store.set key source value ttl cap now).2)
    (hundefine : ∀ store key, P store → P (store.undefine key).2) (st : Startup) {store : Store}
    (h : P store) : P (reconcile st store) := by
  have hundefined : ∀ (keys : List String) {s : Store}, P s →
      P (keys.foldl (fun store key => (store.undefine key).2) s) := by
    intro keys
    induction keys with
    | nil => exact id
    | cons key keys ih => exact fun hs => ih (hundefine _ key hs)
  have hregistered := kept_registerDefinitions hdefine hset st.runner st.forceEager
    store.entries.keys st.clock st.config 0 (hundefined st.configNames h)
  unfold reconcile
  simp only
  split
  · exact hregistered
  · exact hregistered
  · exact hundefined _ (kept_restorePersisted hdefine st.configNames _ hregistered)

end Kept

section Undefine

variable {store : Store} {k : String}

/-- What the removal of a definition leaves of a key. -/
def KeySlice.undefined (slice : KeySlice) : KeySlice :=
  { slice with definition := none, guard := none, claim := none }

theorem undefine_slice (store : Store) (key k : String) :
    (store.undefine key).2.slice k =
      if key = k then KeySlice.undefined (store.slice k) else store.slice k := by
  by_cases hk : key = k
  · subst hk
    simp [undefine, slice, KeySlice.undefined]
  · simp [undefine, slice, KeyMap.get_erase, hk]

theorem undefineAll_slice (keys : List String) (store : Store) (k : String) :
    (keys.foldl (fun store key => (store.undefine key).2) store).slice k =
      if k ∈ keys then KeySlice.undefined (store.slice k) else store.slice k := by
  induction keys generalizing store with
  | nil => rfl
  | cons key keys ih =>
    rw [List.foldl_cons, ih, undefine_slice]
    by_cases hk : key = k
    · subst hk
      by_cases hmem : key ∈ keys <;> simp [KeySlice.undefined, hmem]
    · simp [hk, Ne.symm hk]

end Undefine

/-- The definition the first well-formed entry for the key gives it. -/
def registered (entries : List KvDefinition) (k : String) : Option Definition :=
  entries.findSome? fun entry =>
    if entry.key = k then entry.ttl.toOption.map entry.declares else none

section Register

variable {store : Store} {k : String} {entry : KvDefinition}

theorem registered_cons (entry : KvDefinition) (entries : List KvDefinition) (k : String) :
    registered (entry :: entries) k = (registered [entry] k).or (registered entries k) := by
  unfold registered
  simp only [List.findSome?_cons, List.findSome?_nil]
  split <;> simp_all

theorem registered_of_not_mem {entries : List KvDefinition} (h : k ∉ entries.map KvDefinition.key) :
    registered entries k = none := by
  unfold registered
  rw [List.findSome?_eq_none_iff]
  intro entry hmem
  rw [if_neg]
  intro hkey
  exact h (hkey ▸ List.mem_map_of_mem hmem)

/-- A command defines its key, if nothing else has, and touches nothing else. -/
theorem defineWithMeta_slice (store : Store) (key : String) (d : Definition) (k : String)
    (hvalid : ValidKey k) :
    (store.defineWithMeta key d.source d.ttl d.valueMeta d.sourceMeta).2.slice k =
      { store.slice k with
        definition := (store.definitions[k]?).or (if key = k then some d else none) } := by
  have hnew := Definition.new_of_regenerable d.ttl d.regenerable
  rcases store.defineWithMeta_cases key d.source d.ttl d.valueMeta d.sourceMeta with
    ⟨⟨e, heq⟩, hold⟩ | ⟨-, d', hd', ⟨hold, heq⟩ | ⟨hold, heq⟩⟩
  · rw [heq]
    by_cases hk : key = k
    · subst hk
      rcases Option.isSome_iff_exists.mp (hold _ hvalid hnew) with ⟨existing, hexisting⟩
      simp [slice, hexisting]
    · simp [hk, slice]
  · rw [heq]
    by_cases hk : key = k
    · subst hk
      simp [slice, hold]
    · simp [hk, slice]
  · rw [heq]
    cases hnew.symm.trans hd'
    by_cases hk : key = k
    · subst hk
      simp [slice, hold, Definition.withMeta, Definition.withSourceMeta]
    · simp [slice, hk, KeyMap.get_insert]

theorem defineWithMeta_entry (store : Store) (entry : KvDefinition) (ttl : Ttl) (k : String)
    (hvalid : ValidKey k) :
    (store.defineWithMeta entry.key entry.source.lower ttl (metaFromWire entry.valueMeta)
        entry.source.toSourceMeta).2.slice k =
      { store.slice k with
        definition := (store.definitions[k]?).or
          (if entry.key = k then some (entry.declares ttl) else none) } :=
  defineWithMeta_slice store entry.key (entry.declares ttl) k hvalid

/-- What registering keeps: every guard, the values handed over, and the
definition a key has already. -/
structure Registers (alreadyLoaded : List String) (entries : List KvDefinition)
    (store store' : Store) : Prop where
  guards : ∀ k, ValidKey k → store'.guardOf k = store.guardOf k
  values : ∀ k ∈ alreadyLoaded, ValidKey k → store'.entries[k]? = store.entries[k]?
  definitions : ∀ k, ValidKey k →
    store'.definitions[k]? = (store.definitions[k]?).or (registered entries k)

variable {alreadyLoaded : List String} {entries : List KvDefinition} {store' store'' : Store}

theorem registers_refl : Registers alreadyLoaded [] store store :=
  ⟨fun _ _ => rfl, fun _ _ _ => rfl, fun _ _ => by simp [registered]⟩

theorem Registers.cons (h : Registers alreadyLoaded [entry] store store')
    (hrest : Registers alreadyLoaded entries store' store'') :
    Registers alreadyLoaded (entry :: entries) store store'' where
  guards k hk := (hrest.guards k hk).trans (h.guards k hk)
  values k hmem hk := (hrest.values k hmem hk).trans (h.values k hmem hk)
  definitions k hk := by
    rw [hrest.definitions k hk, h.definitions k hk, Option.or_assoc, registered_cons entry entries]

theorem registered_singleton (entry : KvDefinition) (k : String) :
    registered [entry] k =
      if entry.key = k then entry.ttl.toOption.map entry.declares else none := by
  unfold registered
  simp only [List.findSome?_cons, List.findSome?_nil]
  split <;> simp_all

/-- An entry whose windows are out of order registers nothing. -/
theorem registers_skipped {e : TtlError} (h : entry.ttl = .error e) :
    Registers alreadyLoaded [entry] store store where
  guards _ _ := rfl
  values _ _ _ := rfl
  definitions k _ := by
    rw [registered_singleton, h]
    by_cases hk : entry.key = k <;> simp [hk, Except.toOption]

theorem registers_defined {ttl : Ttl} (h : entry.ttl = .ok ttl) :
    Registers alreadyLoaded [entry] store
      (store.defineWithMeta entry.key entry.source.lower ttl (metaFromWire entry.valueMeta)
        entry.source.toSourceMeta).2 where
  guards k hk := congrArg KeySlice.guard (defineWithMeta_entry store entry ttl k hk)
  values k _ hk := congrArg KeySlice.entry (defineWithMeta_entry store entry ttl k hk)
  definitions k hk := by
    rw [registered_singleton, h]
    exact congrArg KeySlice.definition (defineWithMeta_entry store entry ttl k hk)

/-- An eager value is put under a key that had none. -/
theorem Registers.put {value : CacheEntry} (h : Registers alreadyLoaded [entry] store store')
    (hnew : entry.key ∉ alreadyLoaded) :
    Registers alreadyLoaded [entry] store (store'.putEntry entry.key value) where
  guards k hk := h.guards k hk
  values k hmem hk := by
    rw [← h.values k hmem hk]
    refine KeyMap.get_insert_of_ne _ _ ?_
    intro hkey
    exact hnew (hkey ▸ hmem)
  definitions k hk := h.definitions k hk

theorem registers_definition (runner : SourceRunner) (forceEager : List String) (now : Monotonic) :
    Registers alreadyLoaded [entry] store
      (registerDefinition runner forceEager alreadyLoaded now store entry) := by
  unfold registerDefinition
  cases httl : entry.ttl with
  | error e => exact registers_skipped httl
  | ok ttl =>
    have hdefined : Registers alreadyLoaded [entry] store _ := registers_defined httl
    simp only
    rcases hdefine : store.defineWithMeta entry.key entry.source.lower ttl
      (metaFromWire entry.valueMeta) entry.source.toSourceMeta with ⟨result, after⟩
    rw [hdefine] at hdefined
    cases result with
    | error e => exact hdefined
    | ok _ =>
      simp only
      by_cases heager : ((entry.preload || decide (entry.key ∈ forceEager)) &&
          decide (entry.key ∉ alreadyLoaded)) = true
      · rw [if_pos heager]
        cases runSource runner entry.source.lower with
        | error e => exact hdefined
        | ok value =>
          have hnew : entry.key ∉ alreadyLoaded := by
            simp only [Bool.and_eq_true, decide_eq_true_eq] at heager
            exact heager.2
          simp only
          unfold Store.set
          rw [after.checkCap_controlCap]
          cases validateKeySyntax entry.key with
          | error e => exact hdefined
          | ok _ => exact hdefined.put hnew
      · rw [if_neg heager]
        exact hdefined

theorem registers_definitions (runner : SourceRunner) (forceEager : List String) (clock : Clock)
    (entries : List KvDefinition) (i : ℕ) (store : Store) :
    Registers alreadyLoaded entries store
      (registerDefinitions runner forceEager alreadyLoaded clock i entries store) := by
  induction entries generalizing i store with
  | nil => exact registers_refl
  | cons entry rest ih => exact (registers_definition runner forceEager (clock.now i)).cons (ih _ _)

/-- The entries of the file that the configuration leaves to it. -/
def unclaimed (configNames : List String) (persisted : List KvDefinition) : List KvDefinition :=
  persisted.filter fun entry => entry.key ∉ configNames

theorem registers_persisted (configNames : List String) (persisted : List KvDefinition)
    (store : Store) :
    Registers alreadyLoaded (unclaimed configNames persisted) store
      (restorePersistedDefinitions configNames persisted store) := by
  unfold restorePersistedDefinitions unclaimed
  induction persisted generalizing store with
  | nil => exact registers_refl
  | cons entry rest ih =>
    rw [List.foldl_cons]
    by_cases hmem : entry.key ∈ configNames
    · rw [List.filter_cons_of_neg (by simpa using hmem),
        show restorePersistedDefinition configNames store entry = store from if_pos hmem]
      exact ih store
    · rw [List.filter_cons_of_pos (by simpa using hmem)]
      refine Registers.cons ?_ (ih _)
      unfold restorePersistedDefinition
      rw [if_neg hmem]
      cases httl : entry.ttl with
      | error e => exact registers_skipped httl
      | ok ttl => exact registers_defined httl

theorem registered_unclaimed (configNames : List String) (persisted : List KvDefinition)
    (k : String) :
    registered (unclaimed configNames persisted) k =
      if k ∈ configNames then none else registered persisted k := by
  unfold unclaimed
  induction persisted with
  | nil => simp [registered]
  | cons entry rest ih =>
    by_cases hmem : entry.key ∈ configNames
    · rw [List.filter_cons_of_neg (by simpa using hmem), ih, registered_cons entry rest,
        registered_singleton]
      by_cases hk : k ∈ configNames
      · rw [if_pos hk, if_pos hk]
      · have hne : entry.key ≠ k := fun heq => hk (heq ▸ hmem)
        rw [if_neg hk, if_neg hk, if_neg hne]
        rfl
    · rw [List.filter_cons_of_pos (by simpa using hmem), registered_cons entry (List.filter _ rest),
        ih, registered_cons entry rest, registered_singleton]
      by_cases hk : k ∈ configNames
      · have hne : entry.key ≠ k := fun heq => hmem (heq ▸ hk)
        rw [if_pos hk, if_pos hk, if_neg hne]
        rfl
      · rw [if_neg hk, if_neg hk]

end Register

section Reconcile

variable {st : Startup} {store : Store} {k : String}

/-- The purge takes the definition of the key. -/
def Purged (st : Startup) (store : Store) (k : String) : Prop :=
  ∃ persisted, st.persisted = .loaded persisted ∧ (store.definitions[k]?).isSome ∧
    k ∉ st.configNames ∧ k ∉ persisted.map KvDefinition.key

/-- The purge does not reach the key: the file lists it, or was not loaded. -/
def outlastsPurge (st : Startup) (k : String) : Bool :=
  match st.persisted with
  | .loaded persisted => k ∈ persisted.map KvDefinition.key
  | _ => true

theorem clearConfigOwned_slice (configNames : List String) (store : Store) (k : String) :
    (clearConfigOwnedDefinitions configNames store).slice k =
      if k ∈ configNames then KeySlice.undefined (store.slice k) else store.slice k :=
  undefineAll_slice configNames store k

theorem purgeStale_slice (configNames persistedNames : List String) (store : Store) (k : String) :
    (purgeStaleImportDefinitions configNames persistedNames store).2.slice k =
      if (store.definitions[k]?).isSome ∧ k ∉ configNames ∧ k ∉ persistedNames then
        KeySlice.undefined (store.slice k)
      else store.slice k := by
  unfold purgeStaleImportDefinitions
  rw [undefineAll_slice]
  simp only [List.mem_filter, KeyMap.mem_keys_iff, List.mem_append, decide_eq_true_eq, not_or]

/-- The store once the configuration's definitions are in. -/
def configured (st : Startup) (store : Store) : Store :=
  registerDefinitions st.runner st.forceEager store.entries.keys st.clock 0 st.config
    (clearConfigOwnedDefinitions st.configNames store)

theorem configured_registers (st : Startup) (store : Store) :
    Registers store.entries.keys st.config (clearConfigOwnedDefinitions st.configNames store)
      (configured st store) :=
  registers_definitions st.runner st.forceEager st.clock st.config 0 _

theorem configured_guard (hvalid : ValidKey k) :
    (configured st store).guardOf k =
      if k ∈ st.configNames then none else store.guardOf k := by
  rw [(configured_registers st store).guards k hvalid]
  have hslice := congrArg KeySlice.guard (clearConfigOwned_slice st.configNames store k)
  rw [show (clearConfigOwnedDefinitions st.configNames store).guardOf k = _ from hslice]
  split <;> rfl

theorem configured_definition (hvalid : ValidKey k) :
    (configured st store).definitions[k]? =
      if k ∈ st.configNames then registered st.config k else store.definitions[k]? := by
  rw [(configured_registers st store).definitions k hvalid]
  have hslice := congrArg KeySlice.definition (clearConfigOwned_slice st.configNames store k)
  rw [show (clearConfigOwnedDefinitions st.configNames store).definitions[k]? = _ from hslice]
  by_cases hk : k ∈ st.configNames
  · rw [if_pos hk, if_pos hk]
    rfl
  · rw [if_neg hk, if_neg hk, registered_of_not_mem hk, Option.or_none]
    rfl

theorem configured_value (hvalid : ValidKey k) (hvalue : (store.entries[k]?).isSome) :
    (configured st store).entries[k]? = store.entries[k]? := by
  rw [(configured_registers st store).values k ((KeyMap.mem_keys_iff _ _).mpr hvalue) hvalid]
  have hslice := congrArg KeySlice.entry (clearConfigOwned_slice st.configNames store k)
  rw [show (clearConfigOwnedDefinitions st.configNames store).entries[k]? = _ from hslice]
  split <;> rfl

/-- The store once the file's definitions are in too. -/
def restored (st : Startup) (persisted : List KvDefinition) (store : Store) : Store :=
  restorePersistedDefinitions st.configNames persisted (configured st store)

theorem restored_registers (st : Startup) (persisted : List KvDefinition) (store : Store) :
    Registers store.entries.keys (unclaimed st.configNames persisted) (configured st store)
      (restored st persisted store) :=
  registers_persisted st.configNames persisted (configured st store)

theorem restored_definition (persisted : List KvDefinition) (hvalid : ValidKey k) :
    (restored st persisted store).definitions[k]? =
      if k ∈ st.configNames then registered st.config k
      else (store.definitions[k]?).or (registered persisted k) := by
  rw [(restored_registers st persisted store).definitions k hvalid, configured_definition hvalid,
    registered_unclaimed]
  by_cases hk : k ∈ st.configNames
  · rw [if_pos hk, if_pos hk, if_pos hk, Option.or_none]
  · rw [if_neg hk, if_neg hk, if_neg hk]

/-- What the startup task does to a key when the file is there. -/
theorem reconcile_slice_loaded {persisted : List KvDefinition}
    (h : st.persisted = .loaded persisted) (hvalid : ValidKey k) :
    (Purged st store k ∧
      (reconcile st store).slice k =
        KeySlice.undefined ((restored st persisted store).slice k)) ∨
      (¬ Purged st store k ∧
        (reconcile st store).slice k = (restored st persisted store).slice k) := by
  have hslice : (reconcile st store).slice k =
      (purgeStaleImportDefinitions st.configNames (persisted.map KvDefinition.key)
        (restored st persisted store)).2.slice k := by
    unfold reconcile
    rw [h]
    rfl
  rw [hslice, purgeStale_slice, restored_definition persisted hvalid]
  have hpurged : Purged st store k ↔ (store.definitions[k]?).isSome ∧ k ∉ st.configNames ∧
      k ∉ persisted.map KvDefinition.key := by
    constructor
    · rintro ⟨persisted', hloaded, hrest⟩
      rw [h] at hloaded
      cases hloaded
      exact hrest
    · exact fun hrest => ⟨persisted, h, hrest⟩
  rw [hpurged]
  by_cases hk : k ∈ st.configNames
  · right
    simp [hk]
  · by_cases hlisted : k ∈ persisted.map KvDefinition.key
    · right
      simp [hlisted]
    · rw [if_neg hk, registered_of_not_mem hlisted, Option.or_none]
      by_cases hdefined : (store.definitions[k]?).isSome
      · left
        exact ⟨⟨hdefined, hk, hlisted⟩, if_pos ⟨hdefined, hk, hlisted⟩⟩
      · right
        exact ⟨fun hp => hdefined hp.1, if_neg fun hp => hdefined hp.1⟩

theorem reconcile_unloaded (h : ∀ persisted, st.persisted ≠ .loaded persisted) :
    reconcile st store = configured st store := by
  unfold reconcile
  cases hp : st.persisted with
  | disabled => rfl
  | unreadable => rfl
  | loaded persisted => exact absurd hp (h persisted)

theorem not_purged_of_unloaded (h : ∀ persisted, st.persisted ≠ .loaded persisted) :
    ¬ Purged st store k := by
  rintro ⟨persisted, hloaded, -⟩
  exact h persisted hloaded

/-- The guard goes if the configuration names the key, or the purge takes its
definition. -/
theorem reconcile_guard_lost (hvalid : ValidKey k)
    (h : k ∈ st.configNames ∨ Purged st store k) : (reconcile st store).guardOf k = none := by
  by_cases hloaded : ∃ persisted, st.persisted = .loaded persisted
  · obtain ⟨persisted, hp⟩ := hloaded
    rcases reconcile_slice_loaded hp hvalid with ⟨-, hslice⟩ | ⟨hnot, hslice⟩
    · exact congrArg KeySlice.guard hslice
    · have hk := h.resolve_right hnot
      rw [show (reconcile st store).guardOf k = _ from congrArg KeySlice.guard hslice]
      show (restored st persisted store).guardOf k = none
      rw [(restored_registers st persisted store).guards k hvalid, configured_guard hvalid,
        if_pos hk]
  · have hnone : ∀ persisted, st.persisted ≠ .loaded persisted := fun p hp => hloaded ⟨p, hp⟩
    rw [reconcile_unloaded hnone, configured_guard hvalid,
      if_pos (h.resolve_right (not_purged_of_unloaded hnone))]

/-- Elsewhere it is as it was. -/
theorem reconcile_guard_kept (hvalid : ValidKey k) (hk : k ∉ st.configNames)
    (hnot : ¬ Purged st store k) : (reconcile st store).guardOf k = store.guardOf k := by
  by_cases hloaded : ∃ persisted, st.persisted = .loaded persisted
  · obtain ⟨persisted, hp⟩ := hloaded
    rcases reconcile_slice_loaded hp hvalid with ⟨hpurged, -⟩ | ⟨-, hslice⟩
    · exact absurd hpurged hnot
    · rw [show (reconcile st store).guardOf k = _ from congrArg KeySlice.guard hslice]
      show (restored st persisted store).guardOf k = _
      rw [(restored_registers st persisted store).guards k hvalid, configured_guard hvalid,
        if_neg hk]
  · have hnone : ∀ persisted, st.persisted ≠ .loaded persisted := fun p hp => hloaded ⟨p, hp⟩
    rw [reconcile_unloaded hnone, configured_guard hvalid, if_neg hk]

/-- The definition of a key after startup. -/
theorem reconcile_definition (hvalid : ValidKey k) :
    (reconcile st store).definitions[k]? =
      if k ∈ st.configNames then registered st.config k
      else
        match st.persisted with
        | .loaded persisted =>
          if k ∈ persisted.map KvDefinition.key then
            (store.definitions[k]?).or (registered persisted k)
          else none
        | _ => store.definitions[k]? := by
  cases hp : st.persisted with
  | disabled | unreadable =>
    rw [reconcile_unloaded (by simp [hp]), configured_definition hvalid]
  | loaded persisted =>
    have hrestored : (restored st persisted store).definitions[k]? = _ :=
      restored_definition persisted hvalid
    have hreconciled : Purged st store k ∧ _ ∨ _ := reconcile_slice_loaded hp hvalid
    rcases hreconciled with ⟨⟨persisted', hloaded, -, hk, hlisted⟩, hslice⟩ | ⟨hnot, hslice⟩
    · rw [hp] at hloaded
      cases hloaded
      rw [show (reconcile st store).definitions[k]? = _ from congrArg KeySlice.definition hslice,
        if_neg hk]
      simp only
      rw [if_neg hlisted]
      rfl
    · rw [show (reconcile st store).definitions[k]? = _ from congrArg KeySlice.definition hslice]
      show (restored st persisted store).definitions[k]? = _
      rw [hrestored]
      by_cases hk : k ∈ st.configNames
      · rw [if_pos hk, if_pos hk]
      · rw [if_neg hk, if_neg hk]
        simp only
        by_cases hlisted : k ∈ persisted.map KvDefinition.key
        · rw [if_pos hlisted]
        · rw [if_neg hlisted, registered_of_not_mem hlisted, Option.or_none]
          by_contra hdefined
          exact hnot ⟨persisted, hp, Option.isSome_iff_ne_none.mpr hdefined, hk, hlisted⟩

/-- A value that was handed over stays through startup. -/
theorem reconcile_value (hvalid : ValidKey k) (hvalue : (store.entries[k]?).isSome) :
    (reconcile st store).entries[k]? = store.entries[k]? := by
  by_cases hloaded : ∃ persisted, st.persisted = .loaded persisted
  · obtain ⟨persisted, hp⟩ := hloaded
    have hsame : (reconcile st store).entries[k]? = (restored st persisted store).entries[k]? := by
      rcases reconcile_slice_loaded hp hvalid with ⟨-, hslice⟩ | ⟨-, hslice⟩ <;>
        exact congrArg KeySlice.entry hslice
    rw [hsame, (restored_registers st persisted store).values k
      ((KeyMap.mem_keys_iff _ _).mpr hvalue) hvalid]
    exact configured_value hvalid hvalue
  · have hnone : ∀ persisted, st.persisted ≠ .loaded persisted := fun p hp => hloaded ⟨p, hp⟩
    rw [reconcile_unloaded hnone]
    exact configured_value hvalid hvalue

/-- No key is defined against the syntax of keys. -/
theorem defineWithMeta_invalid (hk : ¬ ValidKey k) (store : Store) (key : String)
    (source : ValueSource) (ttl : Ttl) (valueMeta : ValueMeta) (sourceMeta : SourceMeta) :
    (store.defineWithMeta key source ttl valueMeta sourceMeta).2.definitions[k]? =
      store.definitions[k]? := by
  rcases store.defineWithMeta_cases key source ttl valueMeta sourceMeta with
    ⟨⟨e, heq⟩, -⟩ | ⟨hentered, d, -, ⟨-, heq⟩ | ⟨-, heq⟩⟩
  · rw [heq]
  · rw [heq]
  · rw [heq]
    have hne : key ≠ k := by
      rintro rfl
      exact hk hentered
    exact KeyMap.get_insert_of_ne _ _ hne

theorem registerDefinitions_invalid (hk : ¬ ValidKey k) (runner : SourceRunner)
    (forceEager alreadyLoaded : List String) (clock : Clock) (entries : List KvDefinition) (i : ℕ)
    (store : Store) :
    (registerDefinitions runner forceEager alreadyLoaded clock i entries store).definitions[k]? =
      store.definitions[k]? := by
  apply kept_registerDefinitions (P := fun s => s.definitions[k]? = store.definitions[k]?)
  · intro s key source ttl valueMeta sourceMeta h
    exact (defineWithMeta_invalid hk s key source ttl valueMeta sourceMeta).trans h
  · intro s key source value ttl cap now h
    obtain ⟨entries, heq⟩ := s.set_eq key source value ttl cap now
    rw [heq]
    exact h
  · rfl

theorem restorePersistedDefinitions_invalid (hk : ¬ ValidKey k) (configNames : List String)
    (persisted : List KvDefinition) (store : Store) :
    (restorePersistedDefinitions configNames persisted store).definitions[k]? =
      store.definitions[k]? := by
  apply kept_restorePersisted (P := fun s => s.definitions[k]? = store.definitions[k]?)
  · intro s key source ttl valueMeta sourceMeta h
    exact (defineWithMeta_invalid hk s key source ttl valueMeta sourceMeta).trans h
  · rfl

/-- Startup defines no name against the syntax of keys. -/
theorem reconcile_invalid (hk : ¬ ValidKey k) (st : Startup) {store : Store}
    (h : k ∈ st.configNames ∨ store.definitions[k]? = none) :
    (reconcile st store).definitions[k]? = none := by
  have hcleared : (clearConfigOwnedDefinitions st.configNames store).definitions[k]? = none := by
    rw [show (clearConfigOwnedDefinitions st.configNames store).definitions[k]? = _ from
      congrArg KeySlice.definition (clearConfigOwned_slice st.configNames store k)]
    split
    · rfl
    · exact h.resolve_left (by assumption)
  have hconfigured : (configured st store).definitions[k]? = none := by
    unfold configured
    rw [registerDefinitions_invalid hk, hcleared]
  by_cases hloaded : ∃ persisted, st.persisted = .loaded persisted
  · obtain ⟨persisted, hp⟩ := hloaded
    have hrestored : (restored st persisted store).definitions[k]? = none := by
      unfold restored
      rw [restorePersistedDefinitions_invalid hk, hconfigured]
    have hpurged := congrArg KeySlice.definition (purgeStale_slice st.configNames
      (persisted.map KvDefinition.key) (restored st persisted store) k)
    rw [hrestored, if_neg (by simp)] at hpurged
    unfold reconcile
    rw [hp]
    exact hpurged.trans hrestored
  · rw [reconcile_unloaded fun p hp => hloaded ⟨p, hp⟩]
    exact hconfigured

end Reconcile

section Handover

variable {s : Store} {clock : Clock} {wallE wallI : UInt64} {builder : StoreBuilder}
  {token : BitVec 128} {nowI : Monotonic} {bundle : StoreBundle}

theorem importOpt_isSome {α β : Type} {f : α → Except ImportError β} {a : Option α} {b : Option β}
    (h : importOpt f a = .ok b) : b.isSome ↔ a.isSome := by
  unfold importOpt at h
  split at h
  · cases h
    rfl
  · split at h
    · cases h
    · cases h
      exact Iff.rfl

/-- The guard of a value that was handed over, with its start times narrowed,
and the definition beside it. -/
theorem handOver_guard (h : s.handOver clock wallE builder token nowI wallI = .ok bundle)
    {k : String} {e : CacheEntry} (he : s.Carried clock k e) :
    ValidKey k ∧
      bundle.store.guardOf k =
        (s.guardOf k).map (fun record => snapshotToGuardRecord (guardRecordToSnapshot record)) ∧
      ((bundle.store.definitions[k]?).isSome ↔ (s.definitions[k]?).isSome) := by
  obtain ⟨v, hv, -⟩ := carried_exported wallE he
  have hvisited : s.Visited k := Or.inl (by simp [he.1])
  have hexported : (s.exported clock wallE k).value.isSome := by simp [hv]
  obtain ⟨value, definition, himports, hslice⟩ := handOver_slice_of_listed h hvisited
    (not_skipped_of_value hexported)
  have hvalue : value.isSome := (importOpt_isSome himports.value).mpr hexported
  refine ⟨himports.valid, ?_, ?_⟩
  · rw [show bundle.store.guardOf k = _ from congrArg KeySlice.guard hslice]
    show (if value.isSome then _ else none) = _
    rw [if_pos hvalue]
    have hguard : (s.exported clock wallE k).guard = (s.guardOf k).map guardRecordToSnapshot := by
      show (if (s.exported clock wallE k).value.isSome then _ else none) = _
      rw [if_pos hexported]
      rfl
    rw [hguard, Option.map_map]
    rfl
  · rw [show bundle.store.definitions[k]? = _ from congrArg KeySlice.definition hslice]
    show definition.isSome ↔ _
    rw [importOpt_isSome himports.definition]
    show (Option.map exportDefinition s.definitions[k]?).isSome ↔ _
    rw [Option.isSome_map]

/-- A definition is handed over with its type, and with its windows narrowed. -/
theorem handOver_definition (h : s.handOver clock wallE builder token nowI wallI = .ok bundle)
    {k : String} {d : Definition} (hd : s.definitions[k]? = some d) :
    ∃ d', bundle.store.definitions[k]? = some d' ∧ d'.valueMeta = d.valueMeta ∧
      d'.ttl.soft = d.ttl.soft.map narrow ∧ d'.ttl.hard = d.ttl.hard.map narrow := by
  have hvisited : s.Visited k := Or.inr (Or.inl (by simp [hd]))
  have hexported : (s.exported clock wallE k).definition = some (exportDefinition d) := by
    show s.definitions[k]?.map exportDefinition = _
    rw [hd]
    rfl
  obtain ⟨value, definition, himports, hslice⟩ := handOver_slice_of_listed h hvisited
    (not_skipped_of_definition (by simp [hexported]))
  have hdefinition := himports.definition
  rw [hexported] at hdefinition
  unfold importOpt at hdefinition
  simp only at hdefinition
  split at hdefinition
  · cases hdefinition
  · rename_i d' hd'
    cases hdefinition
    obtain ⟨-, hmeta, -, hsoft, hhard⟩ := importDefinition_restored hd'
    exact ⟨d', congrArg KeySlice.definition hslice, hmeta, hsoft, hhard⟩

/-- Every value that is handed over keeps its guard through startup. -/
def GuardsSurvive (st : Startup) (s : Store) (clock : Clock) (bundle : StoreBundle) : Prop :=
  ∀ k e, s.Carried clock k e → (reconcile st bundle.store).guardOf k = s.guardOf k

/-- The guards survive if and only if no guarded value is under a name of the
configuration or loses its definition to the purge, and no start time is
narrowed. -/
theorem guards_survive_iff (st : Startup) (s : Store) (clock : Clock) (wallE : UInt64)
    (builder : StoreBuilder) (token : BitVec 128) (nowI : Monotonic) (wallI : UInt64)
    (bundle : StoreBundle) (h : s.handOver clock wallE builder token nowI wallI = .ok bundle) :
    GuardsSurvive st s clock bundle ↔
      ∀ k e record, s.Carried clock k e → s.guardOf k = some record →
        k ∉ st.configNames ∧ ¬ Purged st s k ∧ record.WholeMicros := by
  have hpurged : ∀ k e, s.Carried clock k e → (Purged st bundle.store k ↔ Purged st s k) := by
    intro k e he
    unfold Purged
    rw [(handOver_guard h he).2.2]
  constructor
  · intro hsurvive k e record he hrecord
    obtain ⟨hvalid, hguard, -⟩ := handOver_guard h he
    have hsame := hsurvive k e he
    rw [hrecord] at hsame hguard
    have hk : k ∉ st.configNames := by
      intro hk
      rw [reconcile_guard_lost hvalid (Or.inl hk)] at hsame
      cases hsame
    have hnot : ¬ Purged st s k := by
      intro hp
      rw [reconcile_guard_lost hvalid (Or.inr ((hpurged k e he).mpr hp))] at hsame
      cases hsame
    refine ⟨hk, hnot, ?_⟩
    rw [reconcile_guard_kept hvalid hk (fun hp => hnot ((hpurged k e he).mp hp)), hguard] at hsame
    simp only [Option.map_some, Option.some.injEq] at hsame
    exact (guard_round_trip_iff record).mp hsame
  · intro hcond k e he
    obtain ⟨hvalid, hguard, -⟩ := handOver_guard h he
    cases hrecord : s.guardOf k with
    | none =>
      rw [hrecord] at hguard
      by_cases hlost : k ∈ st.configNames ∨ Purged st bundle.store k
      · exact reconcile_guard_lost hvalid hlost
      · rw [not_or] at hlost
        rw [reconcile_guard_kept hvalid hlost.1 hlost.2, hguard]
        rfl
    | some record =>
      obtain ⟨hk, hnot, hwhole⟩ := hcond k e record he hrecord
      rw [reconcile_guard_kept hvalid hk (fun hp => hnot ((hpurged k e he).mp hp)), hguard, hrecord]
      exact congrArg some ((guard_round_trip_iff record).mpr hwhole)

/-- A guarded value, set by a client, under a name the configuration defines. -/
def guardedValue : Store :=
  let set := (Store.newWithToken 0 Duration.zero).set "default/k" .static [1] Ttl.never ⟨0⟩
    Monotonic.zero
  (set.2.setGuard "default/k" ⟨[.sameUser], ⟨501, 501⟩⟩ ⟨0⟩).2

def plainEntryFor (name : String) : KvDefinition where
  name := name
  pinnedNamespace := none
  source := .command ⟨["true"], none, ∅⟩
  softTtlSecs := none
  hardTtlSecs := none
  preload := false
  valueMeta := ⟨none, ∅⟩

def plainStartup (config : List KvDefinition) : Startup where
  config := config
  persisted := .disabled
  runner _ _ _ := .error .noProgram
  forceEager := []
  clock := Clock.constant Monotonic.zero

def plainHandover : Except HandoffError StoreBundle :=
  guardedValue.handOver (Clock.constant Monotonic.zero) 0 ⟨Duration.zero⟩ 0 Monotonic.zero 0

theorem plainHandover_ok : ∃ bundle, plainHandover = .ok bundle := by
  have hok : plainHandover.toOption.isSome := by decide
  cases h : plainHandover with
  | error e =>
    rw [h] at hok
    cases hok
  | ok bundle => exact ⟨bundle, rfl⟩

theorem guardedValue_carried : guardedValue.Carried (Clock.constant Monotonic.zero) "default/k"
    (CacheEntry.new .static [1] Ttl.never Monotonic.zero) :=
  ⟨by decide, by decide⟩

/-- For the children of one process. -/
def listedGuard : GuardRecord :=
  ⟨[.sameUser, .sameAncestor (.named "make") ⟨4242, some (Duration.fromMillis 1700), some 7,
    .utf8 "/usr/bin/make", "make"⟩], ⟨501, 501⟩⟩

/-- A guarded value under a name that was defined online, beside one that the
configuration defines. -/
def listedStore : Store :=
  let defined := (Store.newWithToken 0 Duration.zero).defineWithMeta "default/k"
    (.command ["true"] none ∅) Ttl.never ValueMeta.new SourceMeta.new
  let set := defined.2.set "default/k" .static [1] Ttl.never ⟨0⟩ Monotonic.zero
  let guarded := set.2.setGuard "default/k" listedGuard ⟨0⟩
  (guarded.2.set "default/other" .static [2] Ttl.never ⟨0⟩ Monotonic.zero).2

/-- The file still lists the definition. -/
def listedStartup : Startup :=
  { plainStartup [plainEntryFor "other"] with persisted := .loaded [plainEntryFor "k"] }

def listedHandover : Except HandoffError StoreBundle :=
  listedStore.handOver (Clock.constant Monotonic.zero) 0 ⟨Duration.zero⟩ 0 Monotonic.zero 0

theorem listedHandover_ok : ∃ bundle, listedHandover = .ok bundle := by
  have hok : listedHandover.toOption.isSome := by decide
  cases h : listedHandover with
  | error e =>
    rw [h] at hok
    cases hok
  | ok bundle => exact ⟨bundle, rfl⟩

theorem listedStore_guard (k : String) (record : GuardRecord)
    (h : listedStore.guardOf k = some record) : k = "default/k" ∧ record = listedGuard := by
  have hguards : listedStore.accessGuards =
      (∅ : KeyMap GuardRecord).insert "default/k" listedGuard := by decide
  unfold Store.guardOf at h
  rw [hguards, KeyMap.get_insert] at h
  by_cases hk : "default/k" = k
  · rw [if_pos hk] at h
    exact ⟨hk.symm, (Option.some.inj h).symm⟩
  · rw [if_neg hk, KeyMap.get_empty] at h
    cases h

theorem guards_survive_iff_listed :
    ∃ bundle, listedHandover = .ok bundle ∧
      GuardsSurvive listedStartup listedStore (Clock.constant Monotonic.zero) bundle ∧
      (reconcile listedStartup bundle.store).guardOf "default/k" = some listedGuard := by
  obtain ⟨bundle, hbundle⟩ := listedHandover_ok
  have hsurvive : GuardsSurvive listedStartup listedStore (Clock.constant Monotonic.zero)
      bundle := by
    apply (guards_survive_iff listedStartup listedStore _ 0 ⟨Duration.zero⟩ 0 Monotonic.zero 0
      bundle hbundle).mpr
    intro k e record _ hrecord
    obtain ⟨rfl, rfl⟩ := listedStore_guard k record hrecord
    refine ⟨by decide, ?_, ?_⟩
    · rintro ⟨persisted, hloaded, -, -, hlisted⟩
      cases hloaded
      exact hlisted (by decide)
    · intro declared pinned hmem t ht
      simp only [listedGuard, List.mem_cons, reduceCtorEq, GuardConstraint.sameAncestor.injEq,
        List.not_mem_nil, or_false, false_or] at hmem
      obtain ⟨-, rfl⟩ := hmem
      cases ht
      decide
  have hcarried : listedStore.Carried (Clock.constant Monotonic.zero) "default/k"
      (CacheEntry.new .static [1] Ttl.never Monotonic.zero) := ⟨by decide, by decide⟩
  exact ⟨bundle, hbundle, hsurvive, (hsurvive _ _ hcarried).trans (by decide)⟩

/-- A configuration that defines the key leaves the value there without its
guard. -/
theorem configured_value_unguarded :
    ∃ bundle, plainHandover = .ok bundle ∧
      ¬ GuardsSurvive (plainStartup [plainEntryFor "k"]) guardedValue
        (Clock.constant Monotonic.zero) bundle ∧
      (reconcile (plainStartup [plainEntryFor "k"]) bundle.store).guardOf "default/k" = none ∧
      ((reconcile (plainStartup [plainEntryFor "k"]) bundle.store).entries["default/k"]?).isSome := by
  obtain ⟨bundle, hbundle⟩ := plainHandover_ok
  obtain ⟨e', he', -⟩ := handOver_restored hbundle guardedValue_carried
  have hvalid : ValidKey "default/k" := by decide
  have hlost : (reconcile (plainStartup [plainEntryFor "k"]) bundle.store).guardOf "default/k" =
      none := reconcile_guard_lost hvalid (Or.inl (by decide))
  have hvalue : (reconcile (plainStartup [plainEntryFor "k"]) bundle.store).entries["default/k"]? =
      bundle.store.entries["default/k"]? := reconcile_value hvalid (by simp [he'])
  refine ⟨bundle, hbundle, ?_, hlost, by simp [hvalue, he']⟩
  intro hsurvive
  have hsame := hsurvive "default/k" _ guardedValue_carried
  rw [hlost] at hsame
  exact absurd hsame (by decide)

end Handover

end Daemon

end CacheWarden
