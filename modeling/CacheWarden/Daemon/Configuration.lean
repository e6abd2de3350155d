import CacheWarden.Authsock.FilterRules
import CacheWarden.Authsock.OpDiscovery
import CacheWarden.Daemon.PersistedLoad

/-!
# The configuration of the daemon

The tables of the configuration are checked once, when the file is read. What startup takes out
of them later goes through the same checks again and leaves out what fails them. What the first
reading accepts is all there, but for the sockets with a keyfile that is gone by then.
-/

set_option autoImplicit false

namespace CacheWarden

namespace Daemon

namespace Configuration

open OpDiscovery (OpSource)

section Tables

structure KvEntryConfig where
  source : Option String
  command : Option Toml.Value
  op : Option OpTable
  persist : Bool
  softTtl : Option String
  hardTtl : Option String
  preload : Bool
  pinnedNamespace : Option String
  valueType : Option String
  otpDigits : Option UInt32
  otpPeriod : Option UInt64
  otpAlgorithm : Option String
  allowedProcesses : List String
  value : Option Toml.Value
  valueStdin : Option Toml.Value
  static : Option Toml.Value

structure AuthsockSocketConfig where
  path : String
  keys : List String
  upstreams : List String
  source : Option String
  filters : List (List String)
  allowedProcesses : List String

structure AuthsockSocket where
  name : String
  path : String
  keys : List String
  upstreams : List String
  source : Option String
  filters : List (List String)
  allowedProcesses : List String

structure AuthsockSourceConfig where
  kind : String
  opAccount : Option String
  members : List String
  softTtl : Option String
  hardTtl : Option String

structure AuthsockSource where
  name : String
  opAccount : Option String
  members : List String
  softTtlSecs : Option UInt64
  hardTtlSecs : Option UInt64

structure GithubConfig where
  cacheTtl : String
  timeout : String

structure AuthsockConfig where
  sources : KeyMap AuthsockSourceConfig
  sockets : KeyMap AuthsockSocketConfig
  github : GithubConfig

structure AuthConfig where
  authType : Option String
  command : Option (List String)

structure CliConfig where
  defaultMode : Option String
  pinnedNamespace : Option String

/-- The tables that the checks are about. -/
structure Config where
  fetchFailureBackoff : String
  auth : Option AuthConfig
  kv : KeyMap KvEntryConfig
  authsock : AuthsockConfig
  cli : CliConfig
  shellNames : Option (List String)

end Tables

section Checks

def KvEntryConfig.validate (crate : TomlCrate) (self : KvEntryConfig) (name : String) :
    Except ConfigError KvDefinition :=
  if self.value.isSome then
    .error (entryError name [.text ("inline `value` is not allowed — secrets must not be stored in config; use a typed source (`source = \"command\"` / `\"op\"`) or pipe the value in at runtime (`... | cache-warden kv set " ++ name ++ "`)")])
  else if self.valueStdin.isSome then
    .error (entryError name [.text ("`value-stdin` is not a config key — pipe literal values in at runtime (`... | cache-warden kv set " ++ name ++ "`)")])
  else if self.static.isSome then
    .error (entryError name [.text "a `static` source cannot be defined from config — only `command` / `op` sources may be defined"])
  else if self.persist && self.source = some "op" then
    .error (entryError name [.text "`persist = true` cannot be combined with `source = \"op\"` — persist makes cache-warden the source of truth for the value, while an op source makes 1Password the source of truth. Pick one: drop `persist` to keep re-fetching from op, or drop the op source to let cache-warden own the value"])
  else do
    let source ← buildKvSource crate name self.source self.command self.op
    let softTtlSecs ← parseTtl name "soft-ttl" self.softTtl
    let hardTtlSecs ← parseTtl name "hard-ttl" self.hardTtl
    let valueMeta ← buildKvMeta name self.valueType self.otpDigits self.otpPeriod self.otpAlgorithm
    let (keyName, ns) ← splitKvEntryName name self.pinnedNamespace
    .ok
      { name := keyName
        pinnedNamespace := ns
        source := source
        softTtlSecs := softTtlSecs
        hardTtlSecs := hardTtlSecs
        preload := self.preload
        valueMeta := valueMeta }

def socketError (name : String) (message : List Piece) : ConfigError :=
  .text ("[authsock.sockets." ++ name ++ "]: ") :: message

def sourceError (name : String) (message : List Piece) : ConfigError :=
  .text ("[authsock.sources." ++ name ++ "]: ") :: message

/-- A key of a socket, with its namespace. -/
def socketKey (name key : String) : Except ConfigError String :=
  if key.toList.contains '/' then
    if (splitComposed key).isNone then
      .error (socketError name [.text "invalid key ", .quoted key, .text " in `keys`: must be KEY or \"NS/KEY\" with segments matching [A-Za-z0-9_]+"])
    else .ok key
  else
    match validateIdentifier key "key" with
    | .error e => .error (socketError name e)
    | .ok () => .ok (compose defaultNamespace key)

variable {Key : Type}

def parseFilters (env : RuleEnv Key) (filters : List (List String)) :
    Except String FilterEvaluator :=
  (filters.mapM fun group : List String => (group.mapM (FilterRule.parse env)).map FilterGroup.mk).map
    FilterEvaluator.mk

/-- The keyfiles of the filters can all be read. -/
def keyfilesReadable (env : RuleEnv Key) (filters : List (List String)) : Bool :=
  filters.all fun group => group.all (FilterRule.readable env)

def AuthsockSocketConfig.validate (env : RuleEnv Key) (self : AuthsockSocketConfig)
    (name : String) : Except ConfigError AuthsockSocket :=
  if self.path.toList.all isWhitespace then
    .error (socketError name [.text "`path` must not be empty"])
  else if self.keys.isEmpty && self.upstreams.isEmpty && self.source.isNone then
    .error (socketError name [.text "needs at least one of `keys` (local KV keys), `upstreams` (forwarded agent sockets), or `source` (a discovered key source)"])
  else
    match parseFilters env self.filters with
    | .error e => .error (socketError name [.text ("invalid `filters`: " ++ e)])
    | .ok _ => do
      let keys ← self.keys.mapM (socketKey name)
      .ok
        { name := name
          path := expandTilde env self.path
          keys := keys
          upstreams := self.upstreams.map (expandTilde env)
          source := self.source
          filters := self.filters
          allowedProcesses := self.allowedProcesses }

def parseSourceTtl (name label : String) : Option String → Except ConfigError (Option UInt64)
  | none => .ok none
  | some text =>
    match parseDuration text with
    | .ok secs => .ok (some secs)
    | .error e => .error (sourceError name (.text (label ++ ": ") :: e))

def AuthsockSourceConfig.validate (self : AuthsockSourceConfig) (name : String) :
    Except ConfigError AuthsockSource :=
  if self.kind ≠ "op" then
    .error (sourceError name [.text "unsupported `kind` ", .quoted self.kind,
      .text " (only \"op\" is supported)"])
  else
    let members := if self.members.isEmpty then ["op://"] else self.members
    match members.find? fun m => (OpSource.parse m).isNone with
    | some m =>
      .error (sourceError name [.text "member ", .quoted m,
        .text " is not an `op://` reference"])
    | none => do
      let softTtlSecs ← parseSourceTtl name "soft-ttl" self.softTtl
      let hardTtlSecs ← parseSourceTtl name "hard-ttl" self.hardTtl
      .ok ⟨name, self.opAccount, members, softTtlSecs, hardTtlSecs⟩

/-- The duration of a field outside the tables of entries. -/
def checkDuration (place : String) (text : String) : Except ConfigError Unit :=
  match parseDuration text with
  | .ok _ => .ok ()
  | .error e => .error (.text place :: e)

def checkSocket (env : RuleEnv Key) (sources : KeyMap AuthsockSourceConfig)
    (p : String × AuthsockSocketConfig) : Except ConfigError Unit := do
  let _ ← p.2.validate env p.1
  match p.2.source with
  | none => .ok ()
  | some src =>
    if sources.contains src then .ok ()
    else
      .error (socketError p.1 [.text "`source` ", .quoted src,
        .text " is not a declared [authsock.sources.*]"])

def CliConfig.check (self : CliConfig) : Except ConfigError Unit :=
  match self.defaultMode.filter fun m => m ≠ "reveal" && m ≠ "dry-run" with
  | some m =>
    .error [.text "[cli]: `default-mode` must be \"reveal\" or \"dry-run\", got ", .quoted m]
  | none =>
    match self.pinnedNamespace with
    | none => .ok ()
    | some ns => (validateIdentifier ns "namespace").mapError (.text "[cli]: " :: ·)

def AuthConfig.check (self : AuthConfig) : Except ConfigError Unit :=
  match self.authType with
  | none =>
    .error [.text "[auth]: `type` is required when [auth] is present (use `type = \"command\"`; omit [auth] entirely for no re-authentication)"]
  | some kind =>
    if kind = "command" then
      match self.command with
      | some (_ :: _) => .ok ()
      | some [] => .error [.text "[auth]: `command` must not be empty for type = \"command\""]
      | none =>
        .error [.text "[auth]: type = \"command\" requires a `command = [...]` argv"]
    else
      .error [.text "[auth]: unknown `type` ", .quoted kind,
        .text " (the only auth type is \"command\")"]

def checkShellNames (names : Option (List String)) : Except ConfigError Unit :=
  if (names.getD []).contains "" then
    .error [.text "[kv-policy]: `shell-names` must not contain an empty string (an empty basename can never match a real process)"]
  else .ok ()

/-- The first check that fails, in order. -/
def checkAll {α : Type} (check : α → Except ConfigError Unit) : List α → Except ConfigError Unit
  | [] => .ok ()
  | a :: rest =>
    match check a with
    | .error e => .error e
    | .ok () => checkAll check rest

namespace Config

/-- The checks of `Config::parse`, once the text is TOML of the right shape. -/
def check (crate : TomlCrate) (env : RuleEnv Key) (self : Config) : Except ConfigError Unit := do
  checkAll (fun p => (p.2.validate crate p.1).map fun _ => ()) self.kv.toList
  checkAll (fun p => (p.2.validate p.1).map fun _ => ()) self.authsock.sources.toList
  checkAll (checkSocket env self.authsock.sources) self.authsock.sockets.toList
  checkDuration "[authsock.github]: cache_ttl: " self.authsock.github.cacheTtl
  checkDuration "[authsock.github]: timeout: " self.authsock.github.timeout
  self.cli.check
  (self.auth.map AuthConfig.check).getD (.ok ())
  checkDuration "[daemon]: fetch-failure-backoff: " self.fetchFailureBackoff
  checkShellNames self.shellNames

def kvDefinitions (crate : TomlCrate) (self : Config) : List KvDefinition :=
  self.kv.toList.filterMap fun p => (p.2.validate crate p.1).toOption

/-- The store keys that the vault is to keep. -/
def persistedKeys (crate : TomlCrate) (self : Config) : List String :=
  KeyMap.sortDedup ((self.kv.toList.filter fun p => p.2.persist).filterMap fun p =>
    (p.2.validate crate p.1).toOption.map KvDefinition.key)

/-- The processes that may ask for a key, where they are named. -/
def kvProcessPolicies (crate : TomlCrate) (self : Config) : KeyMap (List String) :=
  ((self.kv.toList.filter fun p => !p.2.allowedProcesses.isEmpty).filterMap fun p =>
    (p.2.validate crate p.1).toOption.map fun d => (d.key, p.2.allowedProcesses)).foldl
      (fun m p => m.insert p.1 p.2) ∅

def authsockSockets (env : RuleEnv Key) (self : Config) : List AuthsockSocket :=
  self.authsock.sockets.toList.filterMap fun p => (p.2.validate env p.1).toOption

def authsockSources (self : Config) : List AuthsockSource :=
  self.authsock.sources.toList.filterMap fun p => (p.2.validate p.1).toOption

end Config

end Checks

section Accepted

theorem checkAll_ok {α : Type} {check : α → Except ConfigError Unit} {l : List α}
    (h : checkAll check l = .ok ()) : ∀ a ∈ l, check a = .ok () := by
  induction l with
  | nil => exact fun a ha => absurd ha List.not_mem_nil
  | cons b rest ih =>
    intro a ha
    rw [checkAll] at h
    cases hb : check b with
    | error e =>
      rw [hb] at h
      cases h
    | ok u =>
      rw [hb] at h
      rcases List.mem_cons.mp ha with ha | ha
      · rw [ha]
        exact hb
      · exact ih h a ha

theorem map_unit_ok {α : Type} {x : Except ConfigError α} (h : (x.map fun _ => ()) = .ok ()) :
    ∃ a, x = .ok a := by
  cases x with
  | error e => cases h
  | ok a => exact ⟨a, rfl⟩

theorem validateIdentifier_identifier {s what : String} (h : validateIdentifier s what = .ok ()) :
    isIdentifierSegment s.toList = true := by
  unfold validateIdentifier at h
  split at h
  · rename_i hok
    exact hok
  · cases h

theorem mapError_ok {α ε ε' : Type} {x : Except ε α} {f : ε → ε'} {a : α}
    (h : x.mapError f = .ok a) : x = .ok a := by
  cases x with
  | error e => cases h
  | ok b =>
    cases h
    rfl

theorem splitKvEntryName_parts {name : String} {fieldNs : Option String}
    {p : String × Option String} (h : splitKvEntryName name fieldNs = .ok p) :
    p = (name, fieldNs) ∧ isIdentifierSegment name.toList = true ∧
      ∀ ns, fieldNs = some ns → isIdentifierSegment ns.toList = true := by
  unfold splitKvEntryName at h
  cases fieldNs with
  | none =>
    obtain ⟨_, -, h⟩ := bind_ok h
    obtain ⟨_, hname, h⟩ := bind_ok h
    cases h
    exact ⟨rfl, validateIdentifier_identifier (mapError_ok hname), fun ns hns => by cases hns⟩
  | some ns =>
    obtain ⟨_, hns, h⟩ := bind_ok h
    obtain ⟨_, hname, h⟩ := bind_ok h
    cases h
    refine ⟨rfl, validateIdentifier_identifier (mapError_ok hname), fun ns' hsame => ?_⟩
    cases hsame
    exact validateIdentifier_identifier (mapError_ok hns)

variable {crate : TomlCrate} {name : String}

/-- A source that was built passes its own check, and is of the kind that was named. -/
theorem buildKvSource_sound {source : Option String} {command : Option Toml.Value}
    {op : Option OpTable} {spec : SourceSpecWire}
    (h : buildKvSource crate name source command op = .ok spec) :
    spec.validate = .ok () ∧ ((∃ op, spec = .op op) → source = some "op") := by
  unfold buildKvSource at h
  split at h
  · cases h
  split at h
  · cases h
  split at h
  · split at h
    · cases h
    · split at h
      · cases h
        exact ⟨rfl, fun ⟨_, hop⟩ => by cases hop⟩
      · cases h
      · cases h
  split at h
  · rename_i hkind
    split at h
    · cases h
    · split at h
      · split at h
        · rename_i uri _ hscheme
          cases h
          refine ⟨?_, fun _ => by rw [hkind]⟩
          have hblank : uri.toList.all isWhitespace = false := by
            rw [List.isPrefixOf_iff_prefix] at hscheme
            obtain ⟨rest, hrest⟩ := hscheme
            rw [← hrest]
            simp [isWhitespace]
          simp only [SourceSpecWire.validate, hblank, hscheme]
          rfl
        · cases h
      · cases h
  · cases h

/-- An entry that is accepted is a definition of its own name. -/
structure Defines (entry : KvEntryConfig) (name : String) (d : KvDefinition) : Prop where
  named : d.name = name
  identifier : isIdentifierSegment name.toList = true
  inNamespace : isIdentifierSegment (d.pinnedNamespace.getD defaultNamespace).toList = true
  source : d.source.validate = .ok ()
  owned : entry.persist = true → ∃ spec, d.source = .command spec

theorem defines_of_validate {entry : KvEntryConfig} {d : KvDefinition}
    (h : entry.validate crate name = .ok d) : Defines entry name d := by
  unfold KvEntryConfig.validate at h
  split at h
  · cases h
  split at h
  · cases h
  split at h
  · cases h
  split at h
  · cases h
  rename_i howned
  obtain ⟨source, hsource, h⟩ := bind_ok h
  obtain ⟨soft, -, h⟩ := bind_ok h
  obtain ⟨hard, -, h⟩ := bind_ok h
  obtain ⟨valueMeta, -, h⟩ := bind_ok h
  obtain ⟨p, hsplit, h⟩ := bind_ok h
  obtain ⟨hp, hname, hns⟩ := splitKvEntryName_parts hsplit
  cases hp
  cases h
  obtain ⟨hvalid, hkind⟩ := buildKvSource_sound hsource
  refine ⟨rfl, hname, ?_, hvalid, fun hpersist => ?_⟩
  · cases hpinned : entry.pinnedNamespace with
    | none =>
      change isIdentifierSegment defaultNamespace.toList = true
      decide
    | some ns => exact hns ns hpinned
  · cases source with
    | command spec => exact ⟨spec, rfl⟩
    | op spec =>
      exfalso
      apply howned
      rw [hpersist, hkind ⟨spec, rfl⟩]
      rfl

theorem splitSlash_compose {ns key : String} (hns : isIdentifierSegment ns.toList = true)
    (hkey : isIdentifierSegment key.toList = true) :
    splitSlash (compose ns key).toList = [ns.toList, key.toList] := by
  have htext : (compose ns key).toList = ns.toList ++ '/' :: key.toList := by
    simp [compose]
  rw [htext, splitSlash_append (slash_not_mem_of_identifier hns),
    splitSlash_of_not_mem (slash_not_mem_of_identifier hkey)]

theorem validKey_compose {ns key : String} (hns : isIdentifierSegment ns.toList = true)
    (hkey : isIdentifierSegment key.toList = true) : ValidKey (compose ns key) := by
  unfold ValidKey validateKeySyntax
  rw [splitSlash_compose hns hkey]
  simp [segmentsOk, hns, hkey]

theorem Defines.valid {entry : KvEntryConfig} {d : KvDefinition} (h : Defines entry name d) :
    ValidKey d.key := by
  apply validKey_compose h.inNamespace
  rw [h.named]
  exact h.identifier

theorem Defines.name_of_key {entry entry' : KvEntryConfig} {name' : String}
    {d d' : KvDefinition} (h : Defines entry name d) (h' : Defines entry' name' d')
    (hkey : d.key = d'.key) : name = name' := by
  have hsplit := congrArg (fun k => splitSlash k.toList) hkey
  have hd : splitSlash d.key.toList = [_, d.name.toList] :=
    splitSlash_compose h.inNamespace (by rw [h.named]; exact h.identifier)
  have hd' : splitSlash d'.key.toList = [_, d'.name.toList] :=
    splitSlash_compose h'.inNamespace (by rw [h'.named]; exact h'.identifier)
  simp only [hd, hd', List.cons.injEq, and_true] at hsplit
  rw [← h.named, ← h'.named]
  exact String.toList_inj.mp hsplit.2

theorem socketKey_valid {key k : String} (h : socketKey name key = .ok k) : ValidKey k := by
  unfold socketKey at h
  split at h
  · split at h
    · cases h
    · rename_i hsome
      cases h
      apply validKey_of_splitComposed
      rw [Option.isSome_iff_ne_none]
      simpa using hsome
  · split at h
    · cases h
    · rename_i hok
      cases h
      exact validKey_compose (by decide) (validateIdentifier_identifier hok)

variable {Key : Type} {env : RuleEnv Key}

theorem mapM_isOk {α β ε : Type} (f : α → Except ε β) (l : List α) :
    (l.mapM f).isOk = l.all fun a => (f a).isOk := by
  induction l with
  | nil => rfl
  | cons a rest ih =>
    rw [List.mapM_cons, List.all_cons, ← ih]
    cases f a with
    | error e => rfl
    | ok b =>
      cases rest.mapM f with
      | error e => rfl
      | ok bs => rfl

theorem parseFilters_isOk (filters : List (List String)) :
    (parseFilters env filters).isOk =
      filters.all fun group => group.all fun token => (FilterRule.parse env token).isOk := by
  unfold parseFilters
  rw [isOk_map, mapM_isOk]
  simp only [isOk_map, mapM_isOk]

theorem parseFilters_withFiles {filters : List (List String)}
    (files : String → Except String String) (h : (parseFilters env filters).isOk = true) :
    (parseFilters (env.withFiles files) filters).isOk =
      keyfilesReadable (env.withFiles files) filters := by
  rw [parseFilters_isOk, List.all_eq_true] at h
  rw [parseFilters_isOk, keyfilesReadable, Bool.eq_iff_iff, List.all_eq_true, List.all_eq_true]
  apply forall₂_congr
  intro group hgroup
  have htokens := List.all_eq_true.mp (h group hgroup)
  rw [List.all_eq_true, List.all_eq_true]
  apply forall₂_congr
  intro token htoken
  rw [parse_withFiles files (htokens token htoken)]

/-- A socket that was accepted is accepted again just where its filters are. -/
theorem validate_withFiles {entry : AuthsockSocketConfig} {sock : AuthsockSocket}
    (files : String → Except String String) (h : entry.validate env name = .ok sock) :
    (entry.validate (env.withFiles files) name).toOption =
      if keyfilesReadable (env.withFiles files) entry.filters then some sock else none := by
  unfold AuthsockSocketConfig.validate at h ⊢
  split at h
  · cases h
  rename_i hpath
  rw [if_neg hpath]
  split at h
  · cases h
  rename_i hkinds
  rw [if_neg hkinds]
  split at h
  · cases h
  rename_i filters hfilters
  rw [← parseFilters_withFiles files (by rw [hfilters]; rfl)]
  cases hagain : parseFilters (env.withFiles files) entry.filters with
  | error e => rfl
  | ok again =>
    obtain ⟨keys, hkeys, h⟩ := bind_ok h
    cases h
    rw [hkeys]
    rfl

theorem socket_of_validate {entry : AuthsockSocketConfig} {sock : AuthsockSocket}
    (h : entry.validate env name = .ok sock) :
    sock.name = name ∧ sock.source = entry.source ∧ ∀ k ∈ sock.keys, ValidKey k := by
  unfold AuthsockSocketConfig.validate at h
  split at h
  · cases h
  split at h
  · cases h
  split at h
  · cases h
  obtain ⟨keys, hkeys, h⟩ := bind_ok h
  cases h
  refine ⟨rfl, rfl, fun k hk => ?_⟩
  obtain ⟨key, -, hkey⟩ := mem_of_mapM hkeys hk
  exact socketKey_valid hkey

theorem source_of_validate {entry : AuthsockSourceConfig} {source : AuthsockSource}
    (h : entry.validate name = .ok source) : source.name = name := by
  unfold AuthsockSourceConfig.validate at h
  split at h
  · cases h
  dsimp only at h
  split at h
  · cases h
  obtain ⟨soft, -, h⟩ := bind_ok h
  obtain ⟨hard, -, h⟩ := bind_ok h
  cases h
  rfl

/-- Where everything is accepted, nothing is left out. -/
theorem map_filterMap_ok {α β γ : Type} {f : α → Except ConfigError β} {g : β → γ} {g' : α → γ}
    {l : List α} (h : ∀ a ∈ l, ∃ b, f a = .ok b ∧ g b = g' a) :
    (l.filterMap fun a => (f a).toOption).map g = l.map g' := by
  induction l with
  | nil => rfl
  | cons a rest ih =>
    obtain ⟨b, hb, hg⟩ := h a List.mem_cons_self
    rw [List.filterMap_cons_some (b := b) (by rw [hb]; rfl), List.map_cons, List.map_cons, hg,
      ih fun a' ha' => h a' (List.mem_cons_of_mem _ ha')]

theorem mem_filterMap_ok {α β : Type} {f : α → Except ConfigError β} {l : List α} {b : β} :
    (b ∈ l.filterMap fun a => (f a).toOption) ↔ ∃ a ∈ l, f a = .ok b := by
  rw [List.mem_filterMap]
  constructor
  · rintro ⟨a, ha, hb⟩
    refine ⟨a, ha, ?_⟩
    cases hf : f a with
    | error e =>
      rw [hf] at hb
      cases hb
    | ok b' =>
      rw [hf] at hb
      cases hb
      rfl
  · rintro ⟨a, ha, hb⟩
    exact ⟨a, ha, by rw [hb]; rfl⟩

theorem registered_of_nodup {entries : List KvDefinition} {d : KvDefinition}
    (hnodup : (entries.map KvDefinition.key).Nodup) (hd : d ∈ entries) :
    registered entries d.key = d.ttl.toOption.map d.declares := by
  induction entries with
  | nil => exact absurd hd List.not_mem_nil
  | cons entry rest ih =>
    rw [List.map_cons, List.nodup_cons] at hnodup
    rw [registered_cons, registered_singleton]
    rcases List.mem_cons.mp hd with hd | hd
    · rw [hd, if_pos rfl, registered_of_not_mem hnodup.1, Option.or_none]
    · have hne : entry.key ≠ d.key := fun heq =>
        hnodup.1 (heq ▸ List.mem_map_of_mem hd)
      rw [if_neg hne, Option.none_or, ih hnodup.2 hd]

/-- What the first reading accepts. -/
structure Accepts (crate : TomlCrate) (env : RuleEnv Key) (cfg : Config) : Prop where
  kv : ∀ p ∈ cfg.kv.toList, ∃ d, p.2.validate crate p.1 = .ok d
  sources : ∀ p ∈ cfg.authsock.sources.toList, ∃ source, p.2.validate p.1 = .ok source
  sockets : ∀ p ∈ cfg.authsock.sockets.toList, (∃ sock, p.2.validate env p.1 = .ok sock) ∧
    ∀ src, p.2.source = some src → cfg.authsock.sources.contains src = true

theorem accepts_of_check {cfg : Config} (h : cfg.check crate env = .ok ()) :
    Accepts crate env cfg := by
  unfold Config.check at h
  obtain ⟨_, hkv, h⟩ := bind_ok h
  obtain ⟨_, hsources, h⟩ := bind_ok h
  obtain ⟨_, hsockets, -⟩ := bind_ok h
  refine ⟨fun p hp => map_unit_ok (checkAll_ok hkv p hp),
    fun p hp => map_unit_ok (checkAll_ok hsources p hp), fun p hp => ?_⟩
  have hsocket := checkAll_ok hsockets p hp
  unfold checkSocket at hsocket
  obtain ⟨sock, hsock, hsource⟩ := bind_ok hsocket
  refine ⟨⟨sock, hsock⟩, fun src hsrc => ?_⟩
  rw [hsrc] at hsource
  simp only at hsource
  split at hsource
  · rename_i hdeclared
    exact hdeclared
  · cases hsource

theorem entry_of_key {cfg : Config} {p p' : String × KvEntryConfig} {d d' : KvDefinition}
    (hp : p ∈ cfg.kv.toList) (hp' : p' ∈ cfg.kv.toList)
    (hd : p.2.validate crate p.1 = .ok d) (hd' : p'.2.validate crate p'.1 = .ok d')
    (hkey : d.key = d'.key) : p = p' := by
  have hname := (defines_of_validate hd).name_of_key (defines_of_validate hd') hkey
  rw [KeyMap.mem_toList] at hp hp'
  rw [hname, hp', Option.some_inj] at hp
  exact Prod.ext hname hp.symm

namespace Accepts

variable {cfg : Config} (h : Accepts crate env cfg)

include h

theorem definition_names :
    (cfg.kvDefinitions crate).map KvDefinition.name = cfg.kv.toList.map Prod.fst := by
  apply map_filterMap_ok
  intro p hp
  obtain ⟨d, hd⟩ := h.kv p hp
  exact ⟨d, hd, (defines_of_validate hd).named⟩

theorem keys_nodup : ((cfg.kvDefinitions crate).map KvDefinition.key).Nodup := by
  have hnames : ((cfg.kvDefinitions crate).map KvDefinition.name).Nodup := by
    rw [h.definition_names]
    exact KeyMap.nodup_toList cfg.kv
  apply List.Nodup.map_on _ hnames.of_map
  intro d hd d' hd' hkey
  obtain ⟨p, -, hp⟩ := mem_filterMap_ok.mp hd
  obtain ⟨p', -, hp'⟩ := mem_filterMap_ok.mp hd'
  have hdef := defines_of_validate hp
  have hdef' := defines_of_validate hp'
  apply List.inj_on_of_nodup_map hnames hd hd'
  rw [hdef.named, hdef'.named]
  exact hdef.name_of_key hdef' hkey

theorem mem_persistedKeys {p : String × KvEntryConfig} {d : KvDefinition}
    (hp : p ∈ cfg.kv.toList) (hd : p.2.validate crate p.1 = .ok d) :
    d.key ∈ cfg.persistedKeys crate ↔ p.2.persist = true := by
  simp only [Config.persistedKeys, KeyMap.mem_sortDedup, List.mem_filterMap, List.mem_filter,
    Option.map_eq_some_iff]
  constructor
  · rintro ⟨p', ⟨hp', hpersist⟩, d', hd', hkey⟩
    obtain ⟨d'', hd''⟩ := h.kv p' hp'
    rw [hd''] at hd'
    cases hd'
    rw [entry_of_key hp hp' hd hd'' hkey.symm]
    exact hpersist
  · intro hpersist
    exact ⟨p, ⟨hp, hpersist⟩, d, by rw [hd]; rfl, rfl⟩

theorem policy_of_key {p : String × KvEntryConfig} {d : KvDefinition}
    (hp : p ∈ cfg.kv.toList) (hd : p.2.validate crate p.1 = .ok d) :
    (cfg.kvProcessPolicies crate)[d.key]? =
      if p.2.allowedProcesses = [] then none else some p.2.allowedProcesses := by
  have hsub : (((cfg.kv.toList.filter fun p => !p.2.allowedProcesses.isEmpty).filterMap fun p =>
      (p.2.validate crate p.1).toOption.map fun d => (d.key, p.2.allowedProcesses)).map
        Prod.fst).Nodup := by
    have hkeys := h.keys_nodup
    rw [Config.kvDefinitions, List.map_filterMap] at hkeys
    rw [List.map_filterMap]
    simp only [Option.map_map]
    exact (List.filter_sublist.filterMap _).nodup hkeys
  apply Option.ext
  intro v
  rw [Config.kvProcessPolicies, KeyMap.get_foldl_insert hsub]
  simp only [List.mem_filterMap, List.mem_filter, Option.map_eq_some_iff, Prod.mk.injEq]
  constructor
  · intro hv
    rcases hv with ⟨p', ⟨hp', hnamed⟩, d', hd', hkey, hv⟩ | ⟨-, hv⟩
    · obtain ⟨d'', hd''⟩ := h.kv p' hp'
      rw [hd''] at hd'
      cases hd'
      rw [entry_of_key hp hp' hd hd'' hkey.symm, if_neg (by simpa using hnamed), hv]
    · simp at hv
  · intro hv
    by_cases hnone : p.2.allowedProcesses = []
    · rw [if_pos hnone] at hv
      cases hv
    · rw [if_neg hnone, Option.some_inj] at hv
      exact .inl ⟨p, ⟨hp, by simpa using hnone⟩, d, by rw [hd]; rfl, rfl, hv⟩

theorem socket_names (files : String → Except String String) :
    (cfg.authsockSockets (env.withFiles files)).map AuthsockSocket.name =
      (cfg.authsock.sockets.toList.filter fun p =>
        keyfilesReadable (env.withFiles files) p.2.filters).map Prod.fst := by
  have hentry : ∀ p ∈ cfg.authsock.sockets.toList, ((p.2.validate (env.withFiles files) p.1).toOption.map
      AuthsockSocket.name) =
        if keyfilesReadable (env.withFiles files) p.2.filters then some p.1 else none := by
    intro p hp
    obtain ⟨sock, hsock⟩ := (h.sockets p hp).1
    rw [validate_withFiles files hsock, ← (socket_of_validate hsock).1]
    split <;> rfl
  rw [Config.authsockSockets, List.map_filterMap, List.filterMap_congr hentry,
    ← List.filterMap_eq_filter, List.map_filterMap]
  apply List.filterMap_congr
  intro p hp
  by_cases hread : keyfilesReadable (env.withFiles files) p.2.filters = true
  · simp [hread]
  · simp [hread]

theorem source_names :
    cfg.authsockSources.map AuthsockSource.name = cfg.authsock.sources.toList.map Prod.fst := by
  apply map_filterMap_ok
  intro p hp
  obtain ⟨source, hsource⟩ := h.sources p hp
  exact ⟨source, hsource, source_of_validate hsource⟩

end Accepts

end Accepted

section Sample

def emptyCrate : TomlCrate := ⟨fun _ => .ok ∅, fun _ => ""⟩

def tokenEntry : KvEntryConfig :=
  ⟨some "command", some (.table [("argv", .array [.string "cat"])]), none, true, none, none,
    true, some "ci", none, none, none, none, ["ssh"], none, none, none⟩

/-- Two entries, the second of them kept in the vault and open to one program, and two sockets
with a keyfile each. -/
def sampleConfig : Config where
  fetchFailureBackoff := "5s"
  auth := none
  kv := ((∅ : KeyMap KvEntryConfig).insert "otp"
    ⟨some "op", none, some ⟨some "op://v/i/f", none⟩, false, some "10m", none, false, none, none,
      none, none, none, [], none, none, none⟩).insert "token" tokenEntry
  authsock :=
    { sources := (∅ : KeyMap AuthsockSourceConfig).insert "work" ⟨"op", none, [], none, some "1h"⟩
      sockets := ((∅ : KeyMap AuthsockSocketConfig).insert "agent"
        ⟨"/s", ["otp", "ci/token"], [], some "work", [["not-keyfile=/plain", "comment=me"]],
          []⟩).insert "spare" ⟨"/t", [], [], some "work", [["keyfile=/security"]], []⟩
      github := ⟨"1h", "10s"⟩ }
  cli := ⟨some "reveal", none⟩
  shellNames := none

/-- One of the two keyfiles, after the other was removed. -/
def fewerFiles (path : String) : Except String String :=
  if path = "/security" then .error "No such file or directory" else sampleEnv.readFile path

end Sample

end Configuration

end Daemon

end CacheWarden
