import CacheWarden.Daemon.DefinitionFile
import CacheWarden.Daemon.Runs

/-!
# Definitions acknowledged around startup

The control socket is served before the startup task has run. A request that
changes definitions takes the store lock like the task does, so it falls wholly
before the task or wholly after it. After the task each acknowledged change is
in the registry and in the file. Before it nothing is written down yet: what the
file does not list the task purges, and what the file does list it restores.
-/

set_option autoImplicit false

namespace CacheWarden

namespace Daemon

open Store Transition

/-- The file of persisted definitions on disk: no file reads as no entries. -/
inductive StateFile where
  | unreadable
  | holds (entries : List KvDefinition)

namespace StateFile

def Lists (self : StateFile) (k : String) : Prop :=
  ∃ entries, self = .holds entries ∧ k ∈ entries.map KvDefinition.key

/-- The file has one entry for the key, which is what the definition is written
as. -/
def Keeps (self : StateFile) (k : String) (d : Definition) : Prop :=
  ∃ entries entry, self = .holds entries ∧ writtenAs k d = some entry ∧ entry ∈ entries ∧
    ∀ e ∈ entries, e.key = k → e = entry

/-- `load_definitions`, with persistence on. -/
def load : StateFile → PersistedDefinitions
  | .unreadable => .unreadable
  | .holds entries => .loaded entries

end StateFile

/-- The requests that may change definitions: `kv.define`, and `kv.del` with its
`--with-define`. -/
inductive DefRequest where
  | define (key : String) (source : SourceSpecWire) (softTtlSecs hardTtlSecs : Option UInt64)
      (valueMeta : ValueMetaWire)
  | undefine (key : String)

namespace DefRequest

def key : DefRequest → String
  | .define key .. => key
  | .undefine key => key

/-- The definition the request is to leave: none, when it removes it. -/
def asked : DefRequest → Option Definition
  | .define _ source softTtlSecs hardTtlSecs valueMeta => do
    let ttl ←
      (Ttl.new (softTtlSecs.map Duration.fromSecs) (hardTtlSecs.map Duration.fromSecs)).toOption
    let d ← (Definition.new source.lower ttl).toOption
    return (d.withMeta (metaFromWire valueMeta)).withSourceMeta source.toSourceMeta
  | .undefine _ => none

def toRequest : DefRequest → Request
  | .define key source softTtlSecs hardTtlSecs valueMeta =>
    .kvDefine key source softTtlSecs hardTtlSecs valueMeta
  | .undefine key => .kvDel key true

def Blank : DefRequest → Prop
  | .define _ source _ _ _ => source.Blank
  | .undefine _ => False

end DefRequest

/-- The last change of a key's definition that the handler carried out, and
whether its client was told so. -/
structure Taken where
  definition : Option Definition
  acked : Bool

/-- The daemon with its file of definitions. `persist` holds the names of the
configuration once startup has installed the settings; `ledger` is what the
clients know. -/
structure Registrar where
  daemon : State
  file : StateFile
  persist : Option (List String)
  ledger : String → Option Taken

namespace Registrar

/-- The file after `persist_if_enabled`, where the write succeeds or is not due. -/
def persistIfEnabled (self : Registrar) (writes : Bool) : Option StateFile :=
  match self.persist with
  | none => some self.file
  | some configNames =>
    if writes then some (.holds (onlineDefinitions configNames self.daemon.store)) else none

/-- `run_request`, for a request that may change definitions. -/
def request (self : Registrar) (ctx : HandlerCtx) (req : DefRequest) (writes : Bool) :
    Response × Registrar :=
  let response := self.daemon.reply (ctx, req.toRequest)
  let served := { self with daemon := self.daemon.serve (ctx, req.toRequest) }
  match response with
  | .err e => (.err e, served)
  | .ok payload =>
    match served.persistIfEnabled writes with
    | some file =>
      (.ok payload, { served with
        file := file
        ledger := Function.update self.ledger req.key (some ⟨req.asked, true⟩) })
    | none =>
      (.error .internal [.text "definition applied but could not be persisted: "],
        { served with
          ledger := Function.update self.ledger req.key (some ⟨req.asked, false⟩) })

/-- The startup task, with persistence on: its critical section. -/
def register (self : Registrar) (st : Startup) (writes : Bool) : Registrar :=
  let store := reconcile { st with persisted := self.file.load } self.daemon.store
  { self with
    daemon := self.daemon.withStore store
    file := if writes then .holds (onlineDefinitions st.configNames store) else self.file
    persist := some st.configNames }

inductive Event where
  | request (ctx : HandlerCtx) (req : DefRequest) (writes : Bool)
  | register (st : Startup) (writes : Bool)

def step (self : Registrar) : Event → Registrar
  | .request ctx req writes => (self.request ctx req writes).2
  | .register st writes => self.register st writes

end Registrar

section Requests

variable {ctx : HandlerCtx} {s : State} {key : String}

/-- What a request that changes definitions leaves: it is refused and changes
none, or its own key's is the one it asked for. -/
structure Changes (req : DefRequest) (store store' : Store) : Prop where
  elsewhere : ∀ k, k ≠ req.key → store'.definitions[k]? = store.definitions[k]?
  asked : store'.definitions[req.key]? = req.asked
  writable : ¬ req.Blank → ∀ d, req.asked = some d → (writtenAs req.key d).isSome

/-- A define that is carried out has passed the checks of its key, its source
and its windows, and the store has taken it. -/
theorem define_accepted {source : SourceSpecWire} {softTtlSecs hardTtlSecs : Option UInt64}
    {valueMeta : ValueMetaWire} {payload : OkPayload}
    (h : (handleRequest ctx s (.kvDefine key source softTtlSecs hardTtlSecs valueMeta)).1 =
      .ok payload) :
    (splitComposed key).isSome ∧ source.validate = .ok () ∧
      ∃ ttl, Ttl.new (softTtlSecs.map Duration.fromSecs) (hardTtlSecs.map Duration.fromSecs) =
          .ok ttl ∧
        (s.store.defineWithMeta key source.lower ttl (metaFromWire valueMeta)
          source.toSourceMeta).1 = .ok () ∧
        (handleRequest ctx s (.kvDefine key source softTtlSecs hardTtlSecs valueMeta)).2 =
          s.withStore (s.store.defineWithMeta key source.lower ttl (metaFromWire valueMeta)
            source.toSourceMeta).2 := by
  revert h
  show (ownerOnly ctx s key (handleDefine s key source softTtlSecs hardTtlSecs valueMeta)).1 =
    .ok payload → _ ∧ _ ∧ ∃ ttl, _ ∧ _ ∧
      (ownerOnly ctx s key (handleDefine s key source softTtlSecs hardTtlSecs valueMeta)).2 = _
  unfold ownerOnly
  rcases hgate : requireOwner ctx s key with _ | resp
  case some =>
    obtain ⟨e, rfl⟩ := stops_requireOwner ctx s key resp hgate
    exact fun h => by cases h
  unfold handleDefine
  rcases hkey : validateProtocolKey key with _ | resp
  case some =>
    obtain ⟨e, rfl⟩ := stops_validateProtocolKey key resp hkey
    exact fun h => by cases h
  rcases hns : rejectReservedNamespaceWrite key with _ | resp
  case some =>
    obtain ⟨e, rfl⟩ := stops_rejectReservedNamespaceWrite key resp hns
    exact fun h => by cases h
  have hsplit : (splitComposed key).isSome := by
    unfold validateProtocolKey at hkey
    split at hkey
    · assumption
    · cases hkey
  rcases hsource : source.validate with e | _
  case error => exact fun h => by cases h
  rcases httl : Ttl.new (softTtlSecs.map Duration.fromSecs) (hardTtlSecs.map Duration.fromSecs)
    with e | ttl
  case error => exact fun h => by cases h
  simp only
  intro h
  refine ⟨hsplit, trivial, ttl, rfl, ?_⟩
  rcases hdefine : s.store.defineWithMeta key source.lower ttl (metaFromWire valueMeta)
    source.toSourceMeta with ⟨e | _, store⟩
  · rw [hdefine] at h
    cases e <;> cases h
  · exact ⟨rfl, rfl⟩

theorem defined_definition {source : SourceSpecWire} {softTtlSecs hardTtlSecs : Option UInt64}
    {valueMeta : ValueMetaWire} {ttl : Ttl} {store : Store}
    (httl : Ttl.new (softTtlSecs.map Duration.fromSecs) (hardTtlSecs.map Duration.fromSecs) =
      .ok ttl)
    (h : (store.defineWithMeta key source.lower ttl (metaFromWire valueMeta)
      source.toSourceMeta).1 = .ok ()) :
    ∃ d, (DefRequest.define key source softTtlSecs hardTtlSecs valueMeta).asked = some d ∧
      d.sourceMeta = source.toSourceMeta ∧
      ∀ k, (store.defineWithMeta key source.lower ttl (metaFromWire valueMeta)
        source.toSourceMeta).2.definitions[k]? =
          if k = key then some d else store.definitions[k]? := by
  rcases store.defineWithMeta_cases key source.lower ttl (metaFromWire valueMeta)
    source.toSourceMeta with ⟨⟨e, heq⟩, -⟩ | ⟨-, d, hd, ⟨hold, heq⟩ | ⟨-, heq⟩⟩
  · rw [heq] at h
    cases h
  all_goals
    refine ⟨(d.withMeta (metaFromWire valueMeta)).withSourceMeta source.toSourceMeta,
      by simp [DefRequest.asked, httl, hd, Except.toOption], rfl, fun k => ?_⟩
    rw [heq]
    by_cases hk : k = key
    · subst hk
      simp_all
    · simp [hk, KeyMap.get_insert_of_ne _ _ (Ne.symm hk)]

theorem request_changes {req : DefRequest} {payload : OkPayload}
    (h : (handleRequest ctx s req.toRequest).1 = .ok payload) :
    Changes req s.store (handleRequest ctx s req.toRequest).2.store := by
  cases req with
  | define key source softTtlSecs hardTtlSecs valueMeta =>
    simp only [DefRequest.toRequest] at h ⊢
    obtain ⟨hsplit, hvalidate, ttl, httl, hok, hserved⟩ := define_accepted h
    obtain ⟨d, hasked, hmeta, hdefinitions⟩ := defined_definition httl hok
    rw [hserved]
    refine ⟨fun k hk => ?_, ?_, fun hblank d' hd' => ?_⟩
    · exact (hdefinitions k).trans (if_neg hk)
    · rw [hasked]
      exact (hdefinitions key).trans (if_pos rfl)
    · rw [hasked] at hd'
      cases hd'
      rw [writtenAs_isSome, hmeta]
      exact ⟨(fromSourceMeta_isSome_iff hvalidate).mpr hblank, hsplit⟩
  | undefine key =>
    have heffect := handleRequest_effect ctx s (.kvDel key true)
    simp only [DefRequest.toRequest] at h ⊢
    generalize handleRequest ctx s (.kvDel key true) = result at h heffect
    obtain ⟨response, s'⟩ := result
    subst h
    have hdeleted : ∀ k, (s.store.deleteWithDefinition key s.store.controlCap).2.definitions[k]? =
        if key = k then none else s.store.definitions[k]? := by
      intro k
      have hslice := congrArg KeySlice.definition (deleteWithDefinition_slice s.store key k
        s.store.controlCap s.store.checkCap_controlCap)
      rw [show (s.store.deleteWithDefinition key s.store.controlCap).2.definitions[k]? = _ from
        hslice]
      split <;> rfl
    have hchanges : Changes (.undefine key) s.store
        (s.store.deleteWithDefinition key s.store.controlCap).2 := by
      refine ⟨fun k hk => ?_, ?_, fun _ d hd => by cases hd⟩
      · have hne : key ≠ k := Ne.symm hk
        rw [hdeleted, if_neg hne]
      · show (s.store.deleteWithDefinition key s.store.controlCap).2.definitions[key]? = none
        rw [hdeleted, if_pos rfl]
    cases heffect with
    | deleted _ _ removed hunrelated hgate => exact hchanges
    | deletedHeld _ _ vault hvault hheld => exact hchanges

theorem refused_definitions {req : DefRequest} {e : WireError}
    (h : (handleRequest ctx s req.toRequest).1 = .err e) :
    (handleRequest ctx s req.toRequest).2.store.definitions = s.store.definitions := by
  have heffect := handleRequest_effect ctx s req.toRequest
  generalize handleRequest ctx s req.toRequest = result at h heffect
  obtain ⟨response, s'⟩ := result
  subst h
  cases req with
  | define key source softTtlSecs hardTtlSecs valueMeta =>
    cases heffect with
    | refused _ _ => rfl
  | undefine key =>
    cases heffect with
    | refused _ _ => rfl
    | undeleted _ _ _ vault file hvault hheld hcommit hfile => rfl

end Requests

section Runs

variable {names : List String} {self : Registrar}

/-- What stands of a key once a change of its definition is written down: the
definition, in the registry and in the file, or none in either. -/
def DefinitionStands (store : Store) (file : StateFile) (k : String) : Option Definition → Prop
  | some d => store.definitions[k]? = some d ∧ file.Keeps k d
  | none => store.definitions[k]? = none ∧ ¬ file.Lists k

/-- What the clients were told of the keys outside the configuration stands. -/
def Settled (names : List String) (self : Registrar) : Prop :=
  ∀ k, k ∉ names → ∀ t, self.ledger k = some t → t.acked = true →
    DefinitionStands self.daemon.store self.file k t.definition

/-- What startup has to find of a key to leave the change standing: a definition
that can be written, of a key that the file lists or that cannot be read; or no
definition, of a key that the file does not list. -/
def Awaits (store : Store) (file : StateFile) (k : String) : Option Definition → Prop
  | some d => store.definitions[k]? = some d ∧ (writtenAs k d).isSome ∧
      (file = .unreadable ∨ file.Lists k)
  | none => store.definitions[k]? = none ∧ ¬ file.Lists k

/-- Before the startup task: what it must find to leave things settled. -/
structure Unsettled (names : List String) (r : Registrar) : Prop where
  persist : r.persist = none
  told : ∀ k, k ∉ names → ∀ t, r.ledger k = some t →
    Awaits r.daemon.store r.file k t.definition

/-- After it: what is told stands, and is written down on every change. -/
structure Tracked (names : List String) (r : Registrar) : Prop where
  persist : r.persist = some names
  settled : Settled names r

/-- The steps that keep the claim: no blank command is defined; before startup
no key is newly defined unless the file lists it or cannot be read, and none is
removed that the file lists; and where startup's rewrite of the file fails, the
file has what was defined before it, as it was defined. -/
def GoodStep (names : List String) (self : Registrar) : Registrar.Event → Prop
  | .request ctx req writes =>
    req.key ∈ names ∨ ¬ req.Blank ∧
      (self.persist = none → (∃ payload, (self.request ctx req writes).1 = .ok payload) →
        if req.asked.isSome then self.file = .unreadable ∨ self.file.Lists req.key
        else ¬ self.file.Lists req.key)
  | .register _ writes =>
    writes = true ∨ ∀ k, k ∉ names → ∀ t, self.ledger k = some t →
      ∀ d, t.definition = some d → self.file.Keeps k d

theorem lists_written {configNames : List String} {store : Store} {k : String} :
    (StateFile.holds (onlineDefinitions configNames store)).Lists k ↔
      k ∉ configNames ∧ ∃ d, store.definitions[k]? = some d ∧ (writtenAs k d).isSome := by
  unfold StateFile.Lists
  simp only [StateFile.holds.injEq, exists_eq_left']
  exact mem_online_keys

/-- The file that is written from the registry says what the registry says. -/
theorem definitionStands_written {configNames : List String} {store : Store} {k : String}
    {definition : Option Definition} (hk : k ∉ configNames)
    (hdef : store.definitions[k]? = definition)
    (hwritable : ∀ d, definition = some d → (writtenAs k d).isSome) :
    DefinitionStands store (.holds (onlineDefinitions configNames store)) k definition := by
  cases definition with
  | none =>
    refine ⟨hdef, fun hlists => ?_⟩
    obtain ⟨-, d, hd, -⟩ := lists_written.mp hlists
    rw [hdef] at hd
    cases hd
  | some d =>
    obtain ⟨entry, hentry⟩ := Option.isSome_iff_exists.mp (hwritable d rfl)
    have hkey := writtenAs_key hentry
    refine ⟨hdef, _, entry, rfl, hentry, ?_, ?_⟩
    · rw [mem_online, hkey]
      exact ⟨hk, d, hdef, hentry⟩
    · intro e he hek
      obtain ⟨-, d', hd', hwritten⟩ := mem_online.mp he
      rw [hek, hdef] at hd'
      cases hd'
      rw [hek, hentry] at hwritten
      exact (Option.some.inj hwritten).symm

theorem DefinitionStands.definition {store : Store} {file : StateFile} {k : String}
    {definition : Option Definition} (h : DefinitionStands store file k definition) :
    store.definitions[k]? = definition := by
  cases definition with
  | none => exact h.1
  | some d => exact h.1

theorem DefinitionStands.writable {store : Store} {file : StateFile} {k : String}
    {definition : Option Definition} (h : DefinitionStands store file k definition) (d : Definition)
    (hd : definition = some d) : (writtenAs k d).isSome := by
  subst hd
  obtain ⟨-, entries, entry, -, hentry, -⟩ := h
  exact Option.isSome_of_eq_some hentry

/-- What stands of a key stands as long as its definition does. -/
theorem DefinitionStands.congr {store store' : Store} {file : StateFile} {k : String}
    {definition : Option Definition} (hdef : store'.definitions[k]? = store.definitions[k]?)
    (h : DefinitionStands store file k definition) : DefinitionStands store' file k definition := by
  cases definition with
  | none => exact ⟨hdef.trans h.1, h.2⟩
  | some d => exact ⟨hdef.trans h.1, h.2⟩

theorem Awaits.congr {store store' : Store} {file : StateFile} {k : String}
    {definition : Option Definition} (hdef : store'.definitions[k]? = store.definitions[k]?)
    (h : Awaits store file k definition) : Awaits store' file k definition := by
  cases definition with
  | none => exact ⟨hdef.trans h.1, h.2⟩
  | some d => exact ⟨hdef.trans h.1, h.2⟩

/-- The file once a change is written down, where settings to write it by are
installed. -/
def fileAfter (self : Registrar) (store : Store) : StateFile :=
  match self.persist with
  | none => self.file
  | some configNames => .holds (onlineDefinitions configNames store)

/-- The ways a request ends: refused, carried out and acknowledged, or carried
out and not written down. -/
inductive Outcome (self : Registrar) (req : DefRequest) : Response → Registrar → Prop
  | refused (e : WireError) (daemon : State)
      (h : daemon.store.definitions = self.daemon.store.definitions) :
      Outcome self req (.err e) { self with daemon := daemon }
  | acknowledged (payload : OkPayload) (daemon : State)
      (h : Changes req self.daemon.store daemon.store) :
      Outcome self req (.ok payload)
        { self with
          daemon := daemon
          file := fileAfter self daemon.store
          ledger := Function.update self.ledger req.key (some ⟨req.asked, true⟩) }
  | unwritten (e : WireError) (daemon : State) (h : Changes req self.daemon.store daemon.store)
      (hpersist : self.persist ≠ none) :
      Outcome self req (.err e)
        { self with
          daemon := daemon
          ledger := Function.update self.ledger req.key (some ⟨req.asked, false⟩) }

theorem request_outcome (self : Registrar) (ctx : HandlerCtx) (req : DefRequest) (writes : Bool) :
    Outcome self req (self.request ctx req writes).1 (self.request ctx req writes).2 := by
  unfold Registrar.request
  dsimp only
  rcases hreply : self.daemon.reply (ctx, req.toRequest) with payload | e
  · have hchanges : Changes req self.daemon.store
        (self.daemon.serve (ctx, req.toRequest)).store := request_changes hreply
    have hacked := Outcome.acknowledged payload _ hchanges
    unfold fileAfter at hacked
    simp only [Registrar.persistIfEnabled]
    rcases hpersist : self.persist with _ | configNames
    · rw [hpersist] at hacked
      exact hacked
    · cases writes with
      | true =>
        rw [hpersist] at hacked
        exact hacked
      | false =>
        have hunwritten := Outcome.unwritten ⟨.internal,
          [.text "definition applied but could not be persisted: "], none, none⟩ _ hchanges
          (by simp [hpersist])
        rw [hpersist] at hunwritten
        exact hunwritten
  · exact .refused e _ (refused_definitions hreply)

theorem unsettled_request (h : Unsettled names self) (ctx : HandlerCtx) (req : DefRequest)
    (writes : Bool) (hgood : GoodStep names self (.request ctx req writes)) :
    Unsettled names (self.request ctx req writes).2 := by
  have houtcome := request_outcome self ctx req writes
  simp only [GoodStep] at hgood
  generalize self.request ctx req writes = result at houtcome hgood ⊢
  obtain ⟨response, next⟩ := result
  cases houtcome with
  | refused e daemon hsame =>
    exact ⟨h.persist, fun k hk t ht => (h.told k hk t ht).congr (by rw [hsame])⟩
  | acknowledged payload daemon hchanges =>
    have hfile : fileAfter self daemon.store = self.file := by
      unfold fileAfter
      rw [h.persist]
    refine ⟨h.persist, fun k hk t ht => ?_⟩
    simp only [hfile]
    by_cases hkey : k = req.key
    · subst hkey
      obtain ⟨hblank, hharmless⟩ := hgood.resolve_left hk
      have hharmless := hharmless h.persist ⟨payload, rfl⟩
      have hdef := hchanges.asked
      have hwritable := hchanges.writable hblank
      simp only [Function.update_self, Option.some.injEq] at ht
      subst ht
      show Awaits daemon.store self.file req.key req.asked
      cases hasked : req.asked with
      | some d =>
        rw [hasked] at hdef hharmless
        exact ⟨hdef, hwritable d hasked, hharmless⟩
      | none =>
        rw [hasked] at hdef hharmless
        exact ⟨hdef, hharmless⟩
    · simp only [Function.update_of_ne hkey] at ht
      exact (h.told k hk t ht).congr (hchanges.elsewhere k hkey)
  | unwritten e daemon hchanges hpersist => exact absurd h.persist hpersist

theorem tracked_request (h : Tracked names self) (ctx : HandlerCtx) (req : DefRequest)
    (writes : Bool) (hgood : GoodStep names self (.request ctx req writes)) :
    Tracked names (self.request ctx req writes).2 := by
  have houtcome := request_outcome self ctx req writes
  simp only [GoodStep] at hgood
  generalize self.request ctx req writes = result at houtcome hgood ⊢
  obtain ⟨response, next⟩ := result
  cases houtcome with
  | refused e daemon hsame =>
    exact ⟨h.persist, fun k hk t ht hacked =>
      (h.settled k hk t ht hacked).congr (by rw [hsame])⟩
  | acknowledged payload daemon hchanges =>
    have hfile : fileAfter self daemon.store = .holds (onlineDefinitions names daemon.store) := by
      unfold fileAfter
      rw [h.persist]
    refine ⟨h.persist, fun k hk t ht hacked => ?_⟩
    simp only [hfile]
    by_cases hkey : k = req.key
    · subst hkey
      simp only [Function.update_self, Option.some.injEq] at ht
      subst ht
      exact definitionStands_written hk hchanges.asked (hchanges.writable (hgood.resolve_left hk).1)
    · simp only [Function.update_of_ne hkey] at ht
      have htold := h.settled k hk t ht hacked
      exact definitionStands_written hk ((hchanges.elsewhere k hkey).trans htold.definition)
        htold.writable
  | unwritten e daemon hchanges hpersist =>
    refine ⟨h.persist, fun k hk t ht hacked => ?_⟩
    by_cases hkey : k = req.key
    · subst hkey
      simp only [Function.update_self, Option.some.injEq] at ht
      subst ht
      cases hacked
    · simp only [Function.update_of_ne hkey] at ht
      exact (h.settled k hk t ht hacked).congr (hchanges.elsewhere k hkey)

/-- Startup leaves a definition that can be written alone when the file lists
its key or cannot be read. -/
theorem defined_reconcile {st : Startup} {store : Store} {k : String} {d : Definition}
    (hk : k ∉ st.configNames) (hkept : outlastsPurge st k = true)
    (hd : store.definitions[k]? = some d) (hwritten : (writtenAs k d).isSome) :
    (reconcile st store).definitions[k]? = some d := by
  have hvalid : ValidKey k := validKey_of_splitComposed (writtenAs_isSome.mp hwritten).2
  rw [reconcile_definition hvalid, if_neg hk]
  unfold outlastsPurge at hkept
  cases hp : st.persisted with
  | disabled | unreadable => exact hd
  | loaded persisted =>
    rw [hp] at hkept
    simp only at hkept ⊢
    rw [if_pos (by simpa using hkept), hd]
    rfl

theorem undefined_reconcile {st : Startup} {store : Store} {k : String} (hk : k ∉ st.configNames)
    (hlist : ∀ persisted, st.persisted = .loaded persisted → k ∉ persisted.map KvDefinition.key)
    (h : store.definitions[k]? = none) : (reconcile st store).definitions[k]? = none := by
  by_cases hvalid : ValidKey k
  · rw [reconcile_definition hvalid, if_neg hk]
    cases hp : st.persisted with
    | disabled | unreadable => exact h
    | loaded persisted =>
      simp only
      rw [if_neg (hlist persisted hp)]
  · exact reconcile_invalid hvalid st (.inr h)

theorem tracked_register (st : Startup) (h : Unsettled st.configNames self) (writes : Bool)
    (hgood : GoodStep st.configNames self (.register st writes)) :
    Tracked st.configNames (self.register st writes) := by
  refine ⟨rfl, fun k hk t ht _ => ?_⟩
  have htold := h.told k hk t ht
  simp only [GoodStep] at hgood
  unfold Registrar.register
  dsimp only [State.withStore]
  cases hdef : t.definition with
  | some d =>
    rw [hdef] at htold
    obtain ⟨hd, hwritable, hlisted⟩ := htold
    have hkept : outlastsPurge { st with persisted := self.file.load } k = true := by
      rcases hlisted with hunreadable | ⟨entries, hholds, hmem⟩
      · rw [hunreadable]
        rfl
      · rw [hholds]
        exact decide_eq_true hmem
    have hreconciled := @defined_reconcile { st with persisted := self.file.load } _ _ _ hk hkept hd
      hwritable
    cases writes with
    | true =>
      refine definitionStands_written hk hreconciled fun d' hd' => ?_
      cases hd'
      exact hwritable
    | false => exact ⟨hreconciled, hgood.resolve_left (by simp) k hk t ht d hdef⟩
  | none =>
    rw [hdef] at htold
    have hundefined := @undefined_reconcile { st with persisted := self.file.load } _ _ hk
      (by
        intro persisted hp hmem
        refine htold.2 ⟨persisted, ?_, hmem⟩
        cases hfile : self.file with
        | unreadable =>
          rw [hfile] at hp
          cases hp
        | holds entries =>
          rw [hfile] at hp
          cases hp
          rfl)
      htold.1
    cases writes with
    | true => exact definitionStands_written hk hundefined fun d hd => by cases hd
    | false => exact ⟨hundefined, htold.2⟩

/-- A client's request, its context and whether the write it calls for succeeds. -/
abbrev DefEvent := HandlerCtx × DefRequest × Bool

def DefEvent.event (e : DefEvent) : Registrar.Event := .request e.1 e.2.1 e.2.2

/-- A run with the startup task between the requests before it and those after. -/
def around (before : List DefEvent) (st : Startup) (writes : Bool) (after : List DefEvent) :
    List Registrar.Event :=
  before.map DefEvent.event ++ .register st writes :: after.map DefEvent.event

theorem unsettled_run (before : List DefEvent) (h : Unsettled names self)
    (hgood : Along Registrar.step (GoodStep names) self (before.map DefEvent.event)) :
    Unsettled names (run Registrar.step self (before.map DefEvent.event)) := by
  induction before generalizing self with
  | nil => exact h
  | cons e before ih => exact ih (unsettled_request h e.1 e.2.1 e.2.2 hgood.1) hgood.2

theorem tracked_run (after : List DefEvent) (h : Tracked names self)
    (hgood : Along Registrar.step (GoodStep names) self (after.map DefEvent.event)) :
    Tracked names (run Registrar.step self (after.map DefEvent.event)) := by
  induction after generalizing self with
  | nil => exact h
  | cons e after ih => exact ih (tracked_request h e.1 e.2.1 e.2.2 hgood.1) hgood.2

def fetchByOp : DefRequest :=
  .define "ns/k" (.command ⟨["op"], none, ∅⟩) none none ⟨none, ∅⟩

theorem fetchByOp_not_blank : ¬ fetchByOp.Blank := by
  simp [fetchByOp, DefRequest.Blank, SourceSpecWire.Blank]

def fetchByPass : KvDefinition where
  name := "k"
  pinnedNamespace := some "ns"
  source := .command ⟨["pass"], none, ∅⟩
  softTtlSecs := none
  hardTtlSecs := none
  preload := false
  valueMeta := ⟨none, ∅⟩

end Runs

end Daemon

end CacheWarden
